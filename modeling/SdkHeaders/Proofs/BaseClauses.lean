import SdkHeaders.Proofs.DeclaredTypes
import SdkHeaders.Proofs.HeaderText
import SdkHeaders.Proofs.Includes
import SdkHeaders.Proofs.Overrides

/-!
# Base clauses

Which bases a declaration names, and how its header spells them.  The bases are those of a table
of the roles: an interface extends an interface of the framework, an implementation extends its own
interface and a class of the framework, and the data type of a class extends that of its base.

Main results:

- Relation `HasBases` is the table, and theorem `Rendered.hasBases` says that headers follow it.
- Theorem `Entity.declarationText_eq_head` finds the base clause in the text of a declaration.
- Theorem `Model.baseClauses_follow`: every descriptor of a loaded model is rendered with the base
  clause of the table, and depends on the bases that are no templates.
-/

namespace SdkHeaders

open Header Text

/-! ## The table of bases -/

/-- The bases that the declaration of an element in a role is to name, in order. -/
inductive HasBases (target : Target) : Element → Role → List TypeExpr → Prop
  /-- An enumeration has no bases. -/
  | enumData (e : EnumDecl) : HasBases target (.ofEnum e) .dataType []
  /-- The data type of a class without base has no bases. -/
  | rootData {c : ClassDecl} (h : c.base = none) : HasBases target (.ofClass c) .dataType []
  /-- The data type of a class extends that of its base. -/
  | derivedData {c : ClassDecl} {b : String} (h : c.base = some b) :
      HasBases target (.ofClass c) .dataType [.user (target.naming.typeName b)]
  /-- A request implements its interface over the requests of the framework. -/
  | request (c : ClassDecl) :
      HasBases target (.ofClass c) (.request .implementation)
        [.user (target.naming.roleName (.ofClass c) (.request .interface)), .user "BaseRequest"]
  /-- The interface of a request extends that of the framework. -/
  | requestInterface (c : ClassDecl) :
      HasBases target (.ofClass c) (.request .interface) [.user "IBaseRequest"]
  /-- A request builder implements its interface over the request builders of the framework. -/
  | requestBuilder (c : ClassDecl) :
      HasBases target (.ofClass c) (.requestBuilder .implementation)
        [.user (target.naming.roleName (.ofClass c) (.requestBuilder .interface)),
          .user "BaseRequestBuilder"]
  /-- The interface of a request builder extends that of the framework. -/
  | requestBuilderInterface (c : ClassDecl) :
      HasBases target (.ofClass c) (.requestBuilder .interface) [.user "IBaseRequestBuilder"]
  /-- A client implements its interface over the clients of the framework. -/
  | client (c : ClassDecl) :
      HasBases target (.ofClass c) (.client .implementation)
        [.user (target.naming.roleName (.ofClass c) (.client .interface)), .user "BaseClient"]
  /-- The interface of a client extends that of the framework. -/
  | clientInterface (c : ClassDecl) :
      HasBases target (.ofClass c) (.client .interface) [.user "IBaseClient"]
  /-- A page implements its interface over the pages of the framework, of the same elements. -/
  | page (c : ClassDecl) (p : Property) :
      HasBases target (.ofProperty c p) (.collectionPage .implementation)
        [.user (target.naming.roleName (.ofProperty c p) (.collectionPage .interface)),
          .userOf "CollectionPage" (p.elementType target)]
  /-- The interface of a page extends that of the framework, of the same elements. -/
  | pageInterface (c : ClassDecl) (p : Property) :
      HasBases target (.ofProperty c p) (.collectionPage .interface)
        [.userOf "ICollectionPage" (p.elementType target)]
  /-- The request for a collection implements its interface over the requests of the framework. -/
  | collectionRequest (c : ClassDecl) (p : Property) :
      HasBases target (.ofProperty c p) (.collectionRequest .implementation)
        [.user (target.naming.roleName (.ofProperty c p) (.collectionRequest .interface)),
          .user "BaseRequest"]
  /-- The interface of the request for a collection extends that of the framework. -/
  | collectionRequestInterface (c : ClassDecl) (p : Property) :
      HasBases target (.ofProperty c p) (.collectionRequest .interface) [.user "IBaseRequest"]
  /-- The request builder of a collection implements its interface over the request builders of
  the framework. -/
  | collectionRequestBuilder (c : ClassDecl) (p : Property) :
      HasBases target (.ofProperty c p) (.collectionRequestBuilder .implementation)
        [.user (target.naming.roleName (.ofProperty c p) (.collectionRequestBuilder .interface)),
          .user "BaseRequestBuilder"]
  /-- The interface of the request builder of a collection extends that of the framework. -/
  | collectionRequestBuilderInterface (c : ClassDecl) (p : Property) :
      HasBases target (.ofProperty c p) (.collectionRequestBuilder .interface)
        [.user "IBaseRequestBuilder"]
  /-- The answer with a page has no bases. -/
  | response (c : ClassDecl) (p : Property) :
      HasBases target (.ofProperty c p) .collectionResponse []

/-- The header of an element in a role names the bases of the table. -/
theorem Rendered.hasBases {setting : Setting} {element : Element} {role : Role}
    {names : List TypeName} {e : Entity} (h : Rendered setting element role names e) :
    HasBases setting.target element role e.declaration.bases.toList := by
  cases h with
  | enumData e => exact .enumData e
  | classData c =>
      cases hbase : c.base with
      | none =>
          have hnone : (c.dataEntity setting.target).declaration.bases.toList = [] := by
            simp [ClassDecl.dataEntity, Naming.baseType, hbase, BaseList.toList]
          exact hnone ▸ .rootData hbase
      | some b =>
          have hone : (c.dataEntity setting.target).declaration.bases.toList =
              [.user (setting.target.naming.typeName b)] := by
            simp [ClassDecl.dataEntity, Naming.baseType, hbase, BaseList.toList]
          exact hone ▸ .derivedData hbase
  | response c p => exact .response c p
  | facet hcontract =>
      cases hcontract with
      | request c f =>
          cases f with
          | implementation => exact .request c
          | interface => exact .requestInterface c
      | requestBuilder c f =>
          cases f with
          | implementation => exact .requestBuilder c
          | interface => exact .requestBuilderInterface c
      | client c f =>
          cases f with
          | implementation => exact .client c
          | interface => exact .clientInterface c
      | collectionPage c p f =>
          cases f with
          | implementation => exact .page c p
          | interface => exact .pageInterface c p
      | collectionRequest c p f =>
          cases f with
          | implementation => exact .collectionRequest c p
          | interface => exact .collectionRequestInterface c p
      | collectionRequestBuilder c p f =>
          cases f with
          | implementation => exact .collectionRequestBuilder c p
          | interface => exact .collectionRequestBuilderInterface c p

/-- An implementation names its interface first. -/
theorem HasBases.head?_eq {target : Target} {element : Element} {role face : Role}
    {bases : List TypeExpr} (h : HasBases target element role bases)
    (hface : role.interface? = some face) (hfacet : role.facet = .implementation) :
    bases.head? = some (.user (target.naming.roleName element (role.withFacet .interface))) := by
  have hnone := (not_congr role.interface?_eq_none_iff).mp (by simp [hface])
  cases h with
  | enumData | rootData | derivedData => exact absurd (.inl rfl) hnone
  | response => exact absurd (.inr rfl) hnone
  | requestInterface | requestBuilderInterface | clientInterface | pageInterface
  | collectionRequestInterface | collectionRequestBuilderInterface => cases hfacet
  | _ => rfl

/-! ## The text of a base clause -/

/-- The lines of a base clause: one line that lists the bases, or none if there are no bases. -/
def clauseLines (indent : String) : List TypeExpr → List String
  | [] => []
  | first :: rest =>
      [indent ++
        (": " ++ ", ".intercalate ((first :: rest).map fun base => "public " ++ base.text))]

namespace Header.Declaration

theorem linesOf_baseClause (indent : String) (d : Declaration) :
    Layout.linesOf indent 0 d.baseClause = clauseLines indent d.bases.toList := by
  unfold baseClause
  split
  · next hempty => rw [(BaseList.isEmpty_iff _).mp hempty]; rfl
  · next hsome =>
      obtain ⟨first, rest, hlist⟩ :=
        List.exists_cons_of_ne_nil (mt (BaseList.isEmpty_iff _).mpr hsome)
      rw [BaseList.join, hlist]
      simp [clauseLines]

/-- The lines of the head of a declaration: the comment, the line that introduces the name, and the
base clause. -/
def headLines (indent : String) (d : Declaration) : List String :=
  ["/// <summary>", "/// " ++ d.summary, "/// </summary>", d.signature] ++
    clauseLines indent d.bases.toList

theorem linesOf_headLayout (indent : String) (d : Declaration) :
    Layout.linesOf indent 0 d.headLayout = d.headLines indent := by
  simp [headLayout, summaryLines, headLines, linesOf_baseClause]

end Header.Declaration

namespace Entity

variable (target : Target) (e : Entity)

/-- The text of the head of a declaration is put together from its lines. -/
theorem headText_eq :
    e.headText target = unlines (e.declaration.headLines target.indent) := by
  rw [headText, Layout.render_eq, Declaration.linesOf_headLayout]

/-- The text of a declaration starts with its head, and an opening brace follows. -/
theorem declarationText_eq_head :
    ∃ body, e.declarationText target =
      unlines (e.declaration.headLines target.indent ++ ["\x7b"]) ++ unlines body := by
  refine ⟨e.declaration.innerLines target.indent, ?_⟩
  rw [declarationText, Layout.render_eq, Declaration.linesOf_layout,
    Declaration.linesOf_headLayout, ← unlines_append, List.append_assoc, List.singleton_append]

/-- The head of a declaration and the brace behind it stand in the header, one level deeper. -/
theorem headLines_infix_fileText (hindent : LineFree target.indent) (space : String) :
    (lines (unlines (e.declaration.headLines target.indent ++ ["\x7b"]))).map
        (Layout.nested target.indent) <:+: lines (e.fileText target space) := by
  refine (holdsText_declaration target space e).infix_lines_render hindent ?_
  obtain ⟨body, hbody⟩ := e.declarationText_eq_head target
  rw [hbody, ← unlines_append, lines_unlines_eq_flatMap, lines_unlines_eq_flatMap]
  exact (List.prefix_append _ body).isInfix.flatMap endedLines

end Entity

/-! ## Bases of loaded models -/

/-- No class of a loaded model is its own base. -/
theorem SourceFile.base_ne_name_of_load {file : SourceFile} {format : Format} {model : Model}
    (h : file.load format = .ok model) {c : ClassDecl} (hc : c ∈ model.classes) :
    c.base ≠ some c.name := by
  obtain ⟨declared, -, hvalid, -, hclasses⟩ := exists_declared_of_load h
  rw [hclasses] at hc
  obtain ⟨d, hd, rfl⟩ := List.mem_map.mp hc
  intro hself
  have hacyclic := hvalid.toWellDeclared.basesEnd_iff_acyclic.mp hvalid.bases_end
  exact hacyclic d.name (.single ⟨d, hd, rfl, hself⟩)

/-- The base clause of an entity of a model follows the table, in the text of its declaration and
of its header.  The base that an implementation names first is its interface, and the entity
depends on the bases that are no templates. -/
structure FollowsTable (setting : Setting) (model : Model) (es : List Entity) (d : Descriptor)
    (e : Entity) : Prop where
  rendered : d.render setting = .ok e
  bases : HasBases setting.target d.element d.role e.declaration.bases.toList
  declaration : ∃ body, e.declarationText setting.target =
    e.headText setting.target ++ "\x7b\n" ++ body
  head : e.headText setting.target =
    unlines (["/// <summary>", "/// " ++ e.declaration.summary, "/// </summary>",
      e.declaration.signature] ++ clauseLines setting.target.indent e.declaration.bases.toList)
  file : (lines (e.headText setting.target ++ "\x7b\n")).map (Layout.nested setting.target.indent)
    <:+: lines (e.fileText setting.target model.headerSpace)
  interface : ∀ face, d.role.interface? = some face → d.role.facet = .implementation →
    ∃ i ∈ es, i.role = face ∧ i.name = setting.target.naming.roleName d.element face ∧
      e.declaration.bases.toList.head? = some (.user i.name)
  recorded : ∀ n, .plain n ∈ e.declaration.bases.toList →
    ∃ x, n = .user x ∧ x ∈ e.dependencies.user.toList

/-- A base that is no template is the data type of a base class, the interface of an
implementation, or a type of the framework. -/
theorem HasBases.cases_plain {target : Target} {element : Element} {role : Role}
    {bases : List TypeExpr} (h : HasBases target element role bases) {n : TypeName}
    (hn : .plain n ∈ bases) :
    (∃ c b, element = .ofClass c ∧ role = .dataType ∧ c.base = some b ∧
        n = .user (target.naming.typeName b)) ∨
      (role.withFacet .interface ≠ role ∧
        n = .user (target.naming.roleName element (role.withFacet .interface))) ∨
      ∃ x ∈ Cpp.frameworkTypes, n = .user x := by
  cases h with
  | derivedData h =>
      obtain rfl : n = _ := TypeExpr.plain.inj (List.mem_singleton.mp hn)
      exact .inl ⟨_, _, rfl, rfl, h, rfl⟩
  | enumData | rootData | response => cases hn
  | pageInterface => simp [TypeExpr.userOf] at hn
  | page =>
      simp only [List.mem_cons, TypeExpr.user, TypeExpr.userOf, TypeExpr.plain.injEq, reduceCtorEq,
        List.not_mem_nil, or_false] at hn
      exact .inr (.inl ⟨by simp [Role.withFacet], hn⟩)
  | requestInterface | requestBuilderInterface | clientInterface | collectionRequestInterface
  | collectionRequestBuilderInterface =>
      obtain rfl : n = _ := TypeExpr.plain.inj (List.mem_singleton.mp hn)
      exact .inr (.inr ⟨_, by decide, rfl⟩)
  | _ =>
      simp only [List.mem_cons, TypeExpr.user, TypeExpr.plain.injEq, List.not_mem_nil,
        or_false] at hn
      rcases hn with rfl | rfl
      · exact .inr (.inl ⟨by simp [Role.withFacet], rfl⟩)
      · exact .inr (.inr ⟨_, by decide, rfl⟩)

section Recorded

variable {model : Model} (hnamed : model.Named)
  (hbases : ∀ c ∈ model.classes, c.base ≠ some c.name) {serviceUrl : String}
  {ds : List Descriptor} (hds : model.descriptors (Model.standardSetting serviceUrl) = .ok ds)

include hds

/-- Another declaration of the model is not called like a given one. -/
theorem roleName_ne_of_ne {a b : Element × Role} (ha : a ∈ model.bindings) (hb : b ∈ model.bindings)
    (hne : a ≠ b) : Cpp.naming.roleName a.1 a.2 ≠ Cpp.naming.roleName b.1 b.2 :=
  fun heq => hne (Model.eq_of_roleName_eq hds ha hb heq)

include hnamed hbases

/-- A header depends on the bases that are no templates: none of them is the declaration itself. -/
theorem HasBases.recorded {element : Element} {role : Role} {names : List TypeName} {e : Entity}
    (hmem : (element, role) ∈ model.bindings)
    (h : Rendered (Model.standardSetting serviceUrl) element role names e) {n : TypeName}
    (hn : .plain n ∈ e.declaration.bases.toList) :
    ∃ x, n = .user x ∧ x ∈ e.dependencies.user.toList := by
  have hown := h.spec.1
  -- What a base mentions is a dependency unless it is the declaration itself.
  have hrecorded : ∀ x, n = .user x → x ≠ e.name → x ∈ e.dependencies.user.toList := by
    rintro x rfl hne
    have hbase : .user x ∈ e.declaration.bases.toList.flatMap TypeExpr.names :=
      List.mem_flatMap.mpr ⟨_, hn, List.mem_singleton_self _⟩
    have hmention : .user x ∈ e.declaration.mentions :=
      List.mem_append_right _ (List.mem_append_left _ hbase)
    rcases (h.selfContained hnamed hmem).user x hmention with heq | ⟨huser, -⟩
    · exact absurd heq hne
    · exact huser
  rcases h.hasBases.cases_plain hn with ⟨c, b, rfl, rfl, hb, rfl⟩ | ⟨hface, rfl⟩ | ⟨x, hx, rfl⟩
  · -- the base is another class, and so is its declaration
    have hc := (Model.mem_bindings_ofClass.mp hmem).1
    obtain ⟨k, hk, rfl⟩ := List.mem_map.mp (hnamed.bases c hc b hb)
    have hdeclared := Model.DeclaredAs.ofClass hk
    refine ⟨_, rfl, hrecorded _ rfl ?_⟩
    rw [hown, hdeclared.typeName_eq]
    refine roleName_ne_of_ne hds hdeclared.mem_bindings hmem fun heq => ?_
    obtain rfl : k = c := Element.ofClass.inj (Prod.ext_iff.mp heq).1
    exact hbases k hk hb
  · refine ⟨_, rfl, hrecorded _ rfl ?_⟩
    rw [hown]
    exact roleName_ne_of_ne hds (Model.interface_mem_bindings hmem) hmem fun heq =>
      hface (Prod.ext_iff.mp heq).2
  · refine ⟨x, rfl, hrecorded x rfl ?_⟩
    rintro rfl
    have hdeclares : model.Declares Cpp.naming e.name := ⟨element, role, hmem, hown.symm⟩
    exact Model.not_mem_frameworkTypes_of_declares hds hdeclares hx

end Recorded

/-! ## The base clauses of a model -/

/-- The headers of a loaded model whose names can stand side by side have the base clauses of the
table. -/
theorem Model.baseClauses_follow {file : SourceFile} {format : Format} {model : Model}
    {serviceUrl : String} {ds : List Descriptor} (hload : file.load format = .ok model)
    (hds : model.descriptors (standardSetting serviceUrl) = .ok ds) :
    ∃ es, model.entities (standardSetting serviceUrl) = .ok es ∧
      List.Forall₂ (FollowsTable (standardSetting serviceUrl) model es) ds es := by
  obtain ⟨es, hes⟩ := exists_entities hds
  obtain ⟨ds', hds', hrender⟩ := entities_eq_ok_iff.mp hes
  obtain rfl : ds = ds' := Except.ok.inj (hds.symm.trans hds')
  obtain ⟨hbind, -⟩ := descriptors_eq_ok_iff.mp hds
  have hmem : ∀ d ∈ ds, (d.element, d.role) ∈ model.bindings := fun d hd =>
    (mem_bindings_iff hbind).mpr ⟨d, hd, rfl, rfl⟩
  refine ⟨es, hes, ((List.forall₂_and_left _ _).mpr ⟨hmem, hrender⟩).imp ?_⟩
  rintro d e ⟨hd, hde⟩
  obtain ⟨names, hrendered⟩ := Descriptor.render_eq_ok_iff.mp hde
  have hhead : e.headText .standard ++ "\x7b\n" =
      unlines (e.declaration.headLines Target.standard.indent ++ ["\x7b"]) := by
    rw [Entity.headText_eq, unlines_append]
    rfl
  constructor
  case rendered => exact hde
  case bases => exact hrendered.hasBases
  case head => exact e.headText_eq .standard
  case declaration =>
    obtain ⟨body, hbody⟩ := e.declarationText_eq_head .standard
    exact ⟨unlines body, hbody.trans (congrArg (· ++ unlines body) hhead.symm)⟩
  case file =>
    have hinfix := e.headLines_infix_fileText .standard (by decide) model.headerSpace
    rwa [← hhead] at hinfix
  case recorded =>
    intro n hn
    exact HasBases.recorded (SourceFile.named_of_load hload)
      (fun c hc => SourceFile.base_ne_name_of_load hload hc) hds hd hrendered hn
  case interface =>
    intro face hface hfacet
    obtain ⟨rfl, -⟩ := withFacet_spec hface
    obtain ⟨i, hi, names', hinterface⟩ :=
      exists_rendered_of_binding hes (interface_mem_bindings hd)
    obtain ⟨hname, hrole, -⟩ := hinterface.spec
    refine ⟨i, hi, hrole, hname, ?_⟩
    rw [hname]
    exact hrendered.hasBases.head?_eq hface hfacet

/-- A document about a shop that sells items, which are things. -/
def shopFile : SourceFile where
  name := "model.json"
  text :=
    "[\"demo\", [[\"size\", false, [[\"small\"]]]], [" ++
      "[\"shop\", \"container\", null, [[\"items\", \"item\", true, true]]]," ++
      "[\"thing\", \"complex\"], [\"item\", \"entity\", \"thing\"]]]"

/-- The model of a shop. -/
def shopModel : Model :=
  .ofFile
    { space := "demo"
      enums := [⟨"size", false, [⟨"small", none⟩]⟩]
      classes :=
        [⟨"shop", .container, none, [⟨"items", "item", true, true, none, ""⟩]⟩,
          ⟨"thing", .complex, none, []⟩, ⟨"item", .entity, some "thing", []⟩] }

/-- The headers of a shop have the base clauses of the table. -/
theorem shopModel_baseClauses :
    shopFile.load .json = .ok shopModel ∧ ∃ ds,
      shopModel.descriptors (Model.standardSetting Model.defaultServiceUrl) = .ok ds ∧
        ∃ es, shopModel.entities (Model.standardSetting Model.defaultServiceUrl) = .ok es ∧
          List.Forall₂ (FollowsTable (Model.standardSetting Model.defaultServiceUrl) shopModel es)
            ds es := by
  have hload : shopFile.load .json = .ok shopModel := by decide +kernel
  obtain ⟨ds, hds⟩ :
      ∃ ds, shopModel.descriptors (Model.standardSetting Model.defaultServiceUrl) = .ok ds :=
    ⟨_, rfl⟩
  exact ⟨hload, ds, hds, Model.baseClauses_follow hload hds⟩

end SdkHeaders
