import SdkHeaders.Document.Load
import SdkHeaders.Proofs.Generation
import SdkHeaders.Proofs.HeaderText
import SdkHeaders.Proofs.LineBreaks
import SdkHeaders.Proofs.LiteralText

/-!
# Texts of the model in literals

The names of a model and the address of the service reach the generated code between the quotes of
string literals: as keys, as segments of paths, as texts of enumerators, and as the address of a
client.

Main results:

- Relation `Carries` lists the literals of a header that carry a text, and theorem
  `Carries.within_fileText` finds each of them in the text of the header.
- Theorem `Model.carried_literals`: such a literal denotes the text that it carries exactly if the
  text holds none of the characters that are left as they are.
- Theorem `sizeModel_literal`: there are models with a literal that does not.
-/

namespace SdkHeaders

open Header Text

/-! ## Literals of headers -/

/-- A literal that carries a text, with the code around it. -/
structure LiteralSite where
  /-- The text that is carried. -/
  carried : String
  /-- Whether the text is escaped. -/
  escaped : Bool
  /-- The code before the text, which ends in the opening quote. -/
  before : String
  /-- The code after the text, which starts with the closing quote. -/
  after : String

namespace LiteralSite

/-- What stands between the quotes. -/
def body (site : LiteralSite) : String :=
  if site.escaped then Literal.escape site.carried else site.carried

/-- The literal with the code around it. -/
def text (site : LiteralSite) : String :=
  site.before ++ site.body ++ site.after

/-- The literal denotes the text that it carries. -/
def Faithful (site : LiteralSite) : Prop :=
  Literal.Denotes site.body.toList site.carried.toList

/-- The characters that must not occur in the text. -/
def excluded (site : LiteralSite) : List Char :=
  if site.escaped then Literal.lineBreaks else Literal.specials

/-- A literal denotes the text that it carries exactly if no excluded character occurs in it. -/
theorem faithful_iff (site : LiteralSite) :
    site.Faithful ↔ ∀ c ∈ site.excluded, c ∉ site.carried.toList := by
  unfold Faithful body excluded
  split
  · rw [Literal.escape, String.toList_ofList]
    exact Literal.denotes_escape_iff _
  · exact Literal.denotes_self_iff _

/-- A literal stands on one line if the text that it carries does. -/
theorem isLine_text {carried before after : String} (escaped : Bool) (hcarried : LineFree carried)
    (hbefore : LineFree before)
    (hafter : LineFree after ∧ after ≠ "" ∧ after.toList.getLast? ≠ some '\r') :
    IsLine (text ⟨carried, escaped, before, after⟩) ∧
      text ⟨carried, escaped, before, after⟩ ≠ "" := by
  have hbody : LineFree (body ⟨carried, escaped, before, after⟩) := by
    cases escaped with
    | false => exact hcarried
    | true => exact hcarried.escape
  have hnonempty : after.toList ≠ [] := fun h => hafter.2.1 (String.toList_inj.mp h)
  refine ⟨⟨?_, ?_⟩, ?_⟩
  · exact lineFree_append.mpr ⟨lineFree_append.mpr ⟨hbefore, hbody⟩, hafter.1⟩
  · rw [text, String.toList_append, List.getLast?_append_of_ne_nil _ hnonempty]
    exact hafter.2.2
  · intro hempty
    have hcs := congrArg String.toList hempty
    simp [text, hafter.2.1] at hcs

end LiteralSite

/-- The literals that carry a text in the header of an element in a role. -/
inductive Carries (serviceUrl : String) : Element → Role → LiteralSite → Prop
  /-- The reader of a class looks up each property by its name. -/
  | key {c : ClassDecl} {p : Property} (hp : p ∈ c.properties) :
      Carries serviceUrl (.ofClass c) .dataType
        ⟨p.name, false, "(jsonValue.at(U(\"", "\")), object."⟩
  /-- The reader of an enumeration compares the value with each name. -/
  | arm {e : EnumDecl} {member : EnumMember} (hmember : member ∈ e.members) :
      Carries serviceUrl (.ofEnum e) .dataType
        ⟨member.name, false, "if (trimmedValue == L\"", "\")"⟩
  /-- An accessor extends a path by the name of a navigation property. -/
  | segment {c : ClassDecl} {p : Property} {role : Role}
      (hrole : role ∈ [Role.requestBuilder .implementation, Role.client .implementation])
      (hp : p ∈ c.navigations) :
      Carries serviceUrl (.ofClass c) role
        ⟨p.name, false, "const std::wstring requestUrl\x7b AppendSegmentToRequestUrl(L\"",
          "\") \x7d;"⟩
  /-- Two constructors of a client hand the address of the service to the base. -/
  | address {c : ClassDecl} {after : String}
      (hafter : after ∈ ["\", authenticationProvider, httpProvider \x7d", "\", httpClient \x7d"]) :
      Carries serviceUrl (.ofClass c) (.client .implementation)
        ⟨serviceUrl, true, ": BaseClient\x7b L\"", after⟩

namespace Carries

variable {setting : Setting} {element : Element} {role : Role} {site : LiteralSite}

/-- A literal of a header stands on one line if the text that it carries does. -/
theorem isLine (h : Carries setting.serviceUrl element role site) (hfree : LineFree site.carried) :
    IsLine site.text ∧ site.text ≠ "" := by
  cases h with
  | address hafter =>
      have hframes : ∀ after ∈ ["\", authenticationProvider, httpProvider \x7d",
          "\", httpClient \x7d"],
          LineFree after ∧ after ≠ "" ∧ after.toList.getLast? ≠ some '\r' := by decide
      exact LiteralSite.isLine_text _ hfree (by decide) (hframes _ hafter)
  | _ => exact LiteralSite.isLine_text _ hfree (by decide) (by decide)

theorem exists_armLayout {name : String} {arms : List (String × String)}
    {arm : String × String} (harm : arm ∈ arms) :
    ∃ before, .line (before ++ "if" ++ " (trimmedValue == " ++ Literal.wide arm.2 ++ ")") ∈
      FreeFunction.armsLayout name arms := by
  cases arms with
  | nil => cases harm
  | cons first rest =>
      rcases List.mem_cons.mp harm with rfl | harm
      · exact ⟨"", by simp [FreeFunction.armsLayout, FreeFunction.armLayout]⟩
      · refine ⟨"else ", ?_⟩
        have hline : .line ("else " ++ "if" ++ " (trimmedValue == " ++ Literal.wide arm.2 ++ ")") ∈
            FreeFunction.armLayout name "else if" arm := List.mem_cons_self
        have hrest := List.mem_flatMap.mpr ⟨arm, harm, hline⟩
        exact List.mem_append_left _ (List.mem_append_right _ hrest)

section Places

variable {x : String} (hx : IsLine x) (hne : x ≠ "") {target : Target} {space : String}

include hx hne

/-- What the check of a reading step spells stands in the header of a class with the step. -/
theorem within_fileText_of_reading {c : ClassDecl} {p : Property} (hp : p ∈ c.properties)
    (h : ∀ member element, Within x ("if (!" ++ ReadStep.fieldCall p.name member element ++ ")")) :
    Within x ((c.dataEntity target).fileText target space) := by
  have hstep : p.reading target ∈ classReading target c :=
    List.mem_append_left _ (List.mem_append_right _ (List.mem_map_of_mem hp))
  have hcode : .line ("if (!" ++ ReadStep.fieldCall p.name _ _ ++ ")") ∈
      (classReading target c).flatMap fun step => step.layout ++ [.blank] :=
    List.mem_flatMap.mpr ⟨_, hstep, List.mem_append_left _ List.mem_cons_self⟩
  refine Entity.within_fileText_of_function hx hne ?_ (List.mem_singleton_self _)
    (List.mem_cons_of_mem _ (List.mem_singleton_self _))
  exact .scope (List.mem_append_left _ hcode) (.line (h _ _))

/-- What the comparison with an enumerator spells stands in the header of the enumeration. -/
theorem within_fileText_of_arm {e : EnumDecl} {member : EnumMember} (hmember : member ∈ e.members)
    (h : Within x ("if (trimmedValue == " ++ Literal.wide member.name ++ ")")) :
    Within x ((e.dataEntity target).fileText target space) := by
  have harm : (target.naming.enumeratorName member.name, member.name) ∈ enumeratorArms target e :=
    List.mem_map_of_mem hmember
  obtain ⟨before, hcode⟩ := exists_armLayout harm
  have hfunction : .parseEnum (target.naming.roleName (.ofEnum e) .dataType)
      (enumeratorArms target e) ∈ (e.dataEntity target).functions := by
    cases hflags : e.flags <;> simp [EnumDecl.dataEntity, enumFunctions, hflags]
  refine Entity.within_fileText_of_function hx hne ?_ hfunction
    (List.mem_cons_of_mem _ (List.mem_singleton_self _))
  refine .scope (List.mem_append_left _ hcode) (.line (h.trans ?_))
  exact within_of_eq before "" (String.toList_inj.mp (by simp))

/-- What an accessor spells stands in the header of an implementation that defines it. -/
theorem within_fileText_of_navigation {contract : Contract} {role : Role} {name interface : String}
    {transport : Transport} {c : ClassDecl} {p : Property}
    (hmethod : navigationMethod target.naming transport c p ∈ contract.methods)
    (hfacet : role.facet = .implementation)
    (h : Within x ("const std::wstring requestUrl\x7b AppendSegmentToRequestUrl(" ++
      Literal.wide p.name ++ ") \x7d;")) :
    Within x ((contract.entity role name interface).fileText target space) := by
  have hmember : .method (navigationMethod target.naming transport c p) ∈
      (contract.entity role name interface).declaration.members := by
    rw [Contract.entity, hfacet]
    exact List.mem_append_right _ (List.mem_cons_of_mem _ (List.mem_map_of_mem hmethod))
  refine Entity.within_fileText_of_member hx hne ?_ hmember
    (List.mem_cons_of_mem _ (List.mem_singleton_self _))
  exact .scope List.mem_cons_self (.line h)

/-- What the call of the base spells stands in the header of a client with the constructor. -/
theorem within_fileText_of_initializer {contract : Contract} {role : Role}
    {name interface : String} {parts : List Parameter × Initializer}
    (hparts : parts ∈ contract.constructors) (hfacet : role.facet = .implementation)
    (h : Within x (": " ++ parts.2.text)) :
    Within x ((contract.entity role name interface).fileText target space) := by
  have hmember : .constructor name parts.1 parts.2 ∈
      (contract.entity role name interface).declaration.members := by
    rw [Contract.entity, hfacet]
    exact List.mem_append_left _ (List.mem_map_of_mem hparts)
  refine Entity.within_fileText_of_member hx hne ?_ hmember
    (List.mem_cons_of_mem _ List.mem_cons_self)
  exact .continuation h

end Places

theorem within_fieldCall (name member : String) (element : Option TypeExpr) :
    Within (LiteralSite.text ⟨name, false, "(jsonValue.at(U(\"", "\")), object."⟩)
      ("if (!" ++ ReadStep.fieldCall name member element ++ ")") := by
  have hcall : ∃ reader, ReadStep.fieldCall name member element =
      reader ++ "(jsonValue.at(" ++ Literal.platform name ++ "), object." ++ member ++ ")" :=
    ⟨_, rfl⟩
  obtain ⟨reader, hcall⟩ := hcall
  refine within_of_eq ("if (!" ++ reader) (member ++ ")" ++ ")") (String.toList_inj.mp ?_)
  rw [hcall]
  simp [Literal.platform, LiteralSite.text, LiteralSite.body]

theorem exists_clientConstructor {serviceUrl after : String}
    (hafter : after ∈ ["\", authenticationProvider, httpProvider \x7d", "\", httpClient \x7d"]) :
    ∃ parts ∈ clientConstructors serviceUrl,
      Within (LiteralSite.text ⟨serviceUrl, true, ": BaseClient\x7b L\"", after⟩)
        (": " ++ parts.2.text) := by
  simp only [List.mem_cons, List.not_mem_nil, or_false] at hafter
  rcases hafter with rfl | rfl
  · refine ⟨_, List.mem_cons_self, within_of_eq "" "" (String.toList_inj.mp ?_)⟩
    simp [Initializer.text, Argument.text, Literal.wide, LiteralSite.text, LiteralSite.body]
  · refine ⟨_, List.mem_cons_of_mem _ (List.mem_cons_of_mem _ List.mem_cons_self),
      within_of_eq "" "" (String.toList_inj.mp ?_)⟩
    simp [Initializer.text, Argument.text, Literal.wide, LiteralSite.text, LiteralSite.body]

/-- A literal that carries a text on one line is found in the text of the header. -/
theorem within_fileText (h : Carries setting.serviceUrl element role site)
    (hfree : LineFree site.carried) {names : List TypeName} {e : Entity}
    (hrendered : Rendered setting element role names e) (space : String) :
    Within site.text (e.fileText setting.target space) := by
  obtain ⟨hline, hne⟩ := h.isLine hfree
  cases h with
  | key hp =>
      cases hrendered with
      | facet hcontract => cases hcontract
      | classData => exact within_fileText_of_reading hline hne hp fun _ _ => within_fieldCall _ _ _
  | arm hmember =>
      cases hrendered with
      | facet hcontract => cases hcontract
      | enumData =>
          refine within_fileText_of_arm hline hne hmember ?_
          refine within_of_eq "" "" (String.toList_inj.mp ?_)
          simp [Literal.wide, LiteralSite.text, LiteralSite.body]
  | @segment c p role hrole hp =>
      have hsegment : Within (LiteralSite.text ⟨p.name, false,
          "const std::wstring requestUrl\x7b AppendSegmentToRequestUrl(L\"", "\") \x7d;"⟩)
          ("const std::wstring requestUrl\x7b AppendSegmentToRequestUrl(" ++
            Literal.wide p.name ++ ") \x7d;") := by
        refine within_of_eq "" "" (String.toList_inj.mp ?_)
        simp [Literal.wide, LiteralSite.text, LiteralSite.body]
      simp only [List.mem_cons, List.not_mem_nil, or_false] at hrole
      rcases hrole with rfl | rfl
      · cases hrendered with
        | facet hcontract =>
            cases hcontract
            exact within_fileText_of_navigation hline hne
              (List.mem_cons_of_mem _ (List.mem_map_of_mem hp)) rfl hsegment
      · cases hrendered with
        | facet hcontract =>
            cases hcontract
            exact within_fileText_of_navigation hline hne (List.mem_map_of_mem hp) rfl hsegment
  | address hafter =>
      cases hrendered with
      | facet hcontract =>
          cases hcontract
          obtain ⟨parts, hparts, hinitializer⟩ := exists_clientConstructor hafter
          exact within_fileText_of_initializer hline hne hparts rfl hinitializer

end Carries

/-- A literal by which a header of a model carries a text denotes the text exactly if the text
holds none of the characters that are left as they are: neither quotes nor backslashes nor line
breaks, and only the last in the address of the service, which is escaped.  A literal that carries
a text without line feeds is found in the text of the header. -/
theorem Model.carried_literals {model : Model} {setting : Setting} {ds : List Descriptor}
    (hds : model.descriptors setting = .ok ds) :
    ∃ es, model.entities setting = .ok es ∧ ∀ element role, (element, role) ∈ model.bindings →
      ∃ e ∈ es, e.name = setting.target.naming.roleName element role ∧ e.role = role ∧
        ∀ site, Carries setting.serviceUrl element role site →
          (LineFree site.carried →
            Within site.text (e.fileText setting.target model.headerSpace)) ∧
          (site.Faithful ↔ ∀ c ∈ site.excluded, c ∉ site.carried.toList) := by
  obtain ⟨es, hes⟩ := exists_entities hds
  refine ⟨es, hes, fun element role hmem => ?_⟩
  obtain ⟨e, he, names, hrendered⟩ := exists_rendered_of_binding hes hmem
  obtain ⟨hname, hrole, -⟩ := hrendered.spec
  refine ⟨e, he, hname, hrole, fun site hsite => ⟨fun hfree => ?_, site.faithful_iff⟩⟩
  exact hsite.within_fileText hfree hrendered _

/-! ## A literal that ends early -/

/-- A document about an enumeration with a quote in the name of a member. -/
def sizeFile : SourceFile where
  name := "model.json"
  text := "[\"demo\", [[\"size\", false, [[\"12\\\" wide\"]]]]]"

/-- The enumeration with a quote in the name of a member. -/
def sizeEnum : EnumDecl where
  name := "size"
  flags := false
  members := [⟨"12\" wide", none⟩]

/-- The model of sizes. -/
def sizeModel : Model :=
  (Model.new "demo").addEnum sizeEnum

/-- The literals of the headers of sizes denote the texts that they carry exactly if these hold
none of the characters that are left as they are. -/
theorem sizeModel_carried_literals :
    ∃ ds, sizeModel.descriptors (Model.standardSetting Model.defaultServiceUrl) = .ok ds ∧
      ∃ es, sizeModel.entities (Model.standardSetting Model.defaultServiceUrl) = .ok es ∧
        ∀ element role, (element, role) ∈ sizeModel.bindings →
          ∃ e ∈ es, e.name = Target.standard.naming.roleName element role ∧ e.role = role ∧
            ∀ site, Carries Model.defaultServiceUrl element role site →
              (LineFree site.carried →
                Within site.text (e.fileText .standard sizeModel.headerSpace)) ∧
              (site.Faithful ↔ ∀ c ∈ site.excluded, c ∉ site.carried.toList) :=
  ⟨_, rfl, Model.carried_literals rfl⟩

/-- The header of sizes of a loaded model compares with a literal that does not denote the name of
the member. -/
theorem sizeModel_literal :
    sizeFile.load .json = .ok sizeModel ∧ ∃ es,
      sizeModel.entities (Model.standardSetting Model.defaultServiceUrl) = .ok es ∧
        ∃ e ∈ es, ∃ site, Carries Model.defaultServiceUrl (.ofEnum sizeEnum) .dataType site ∧
          Within site.text (e.fileText .standard sizeModel.headerSpace) ∧
          site.carried = "12\" wide" ∧ site.body = "12\" wide" ∧ ¬ site.Faithful := by
  refine ⟨by decide +kernel, [_], rfl, _, List.mem_singleton_self _, _,
    .arm (List.mem_singleton_self _), ?_, rfl, rfl, ?_⟩
  case refine_1 =>
    let setting := Model.standardSetting Model.defaultServiceUrl
    have hsite : Carries setting.serviceUrl (.ofEnum sizeEnum) .dataType _ :=
      .arm (List.mem_singleton_self _)
    exact hsite.within_fileText (by decide) (.enumData sizeEnum) _
  case refine_2 =>
    rw [LiteralSite.faithful_iff]
    exact fun h => h '"' (by decide) (by decide)

end SdkHeaders
