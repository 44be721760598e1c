import SdkHeaders.Proofs.LayoutLines
import SdkHeaders.Proofs.NameCharacters
import SdkHeaders.Proofs.Rendered

/-!
# Line feeds in contracts

The texts from which the two facets of a role are written hold no line feeds, provided that the
names and types of the model hold none and the target adds none.

Main results:

- Structure `Target.KeepsLines` says that a target adds no line feeds, and theorem
  `Target.standard_keepsLines` that the usual one does not.
- Predicate `Element.LineFree` says that the names and types of an element hold none.
- Structure `Header.Contract.Legible` says that the texts of a contract hold none, and theorem
  `HasContract.legible` shows it for every role.
-/

namespace SdkHeaders

open Header Text

/-! ## Texts -/

namespace Text

theorem freeOf_lineFeed {s : String} : FreeOf ['\n'] s ↔ LineFree s :=
  freeOf_singleton

namespace LineFree

variable {s : String}

theorem capitalize (h : LineFree s) : LineFree (Text.capitalize s) :=
  freeOf_lineFeed.mp ((freeOf_lineFeed.mpr h).capitalize (by decide))

theorem lowerFirst (h : LineFree s) : LineFree (Text.lowerFirst s) :=
  freeOf_lineFeed.mp ((freeOf_lineFeed.mpr h).lowerFirst (by decide))

theorem escape (h : LineFree s) : LineFree (Literal.escape s) :=
  freeOf_lineFeed.mp ((freeOf_lineFeed.mpr h).escape (by decide))

end LineFree

end Text

/-! ## Names -/

/-- A target adds no line feeds to the names that it derives. -/
structure Target.KeepsLines (target : Target) : Prop where
  toType : ∀ name, LineFree name → LineFree (target.naming.toType name)
  escape : ∀ word ∈ target.naming.reserved, LineFree (target.naming.escape word)
  spellings : ∀ row ∈ target.primitiveTypes, LineFree row.2
  indent : LineFree target.indent

/-- The usual target adds no line feeds. -/
theorem Target.standard_keepsLines : Target.standard.KeepsLines where
  toType _ h := h.capitalize
  escape := by decide +kernel
  spellings := by decide +kernel
  indent := by decide

/-- The name and the type of a property hold no line feeds. -/
def Property.LineFree (p : Property) : Prop :=
  Text.LineFree p.name ∧ Text.LineFree p.type

instance (p : Property) : Decidable p.LineFree :=
  inferInstanceAs (Decidable (_ ∧ _))

/-- The names and types of an element hold no line feeds. -/
def Element.LineFree : Element → Prop
  | .ofEnum e => Text.LineFree e.name
  | .ofClass c => Text.LineFree c.name ∧ ∀ p ∈ c.navigations, p.LineFree
  | .ofProperty owner p => Text.LineFree owner.name ∧ p.LineFree

instance : (element : Element) → Decidable element.LineFree
  | .ofEnum e => inferInstanceAs (Decidable (Text.LineFree e.name))
  | .ofClass c => inferInstanceAs (Decidable (_ ∧ ∀ p ∈ c.navigations, p.LineFree))
  | .ofProperty owner p => inferInstanceAs (Decidable (Text.LineFree owner.name ∧ p.LineFree))

namespace Target.KeepsLines

variable {target : Target} (h : target.KeepsLines)

include h

theorem keeps : target.Keeps ['\n'] where
  signs := by decide
  toType name hname := freeOf_lineFeed.mpr (h.toType name (freeOf_lineFeed.mp hname))
  escape word hword _ := freeOf_lineFeed.mpr (h.escape word hword)
  spellings row hrow := freeOf_lineFeed.mpr (h.spellings row hrow)

theorem typeName {name : String} (hname : LineFree name) :
    LineFree (target.naming.typeName name) :=
  freeOf_lineFeed.mp (h.keeps.typeName (freeOf_lineFeed.mpr hname))

theorem roleName {element : Element} (helement : element.LineFree) (role : Role) :
    LineFree (target.naming.roleName element role) := by
  have hnames : ∀ name ∈ element.names, LineFree name := by
    cases element with
    | ofEnum e => exact List.forall_mem_singleton.mpr helement
    | ofClass c => exact List.forall_mem_singleton.mpr helement.1
    | ofProperty owner p =>
        exact List.forall_mem_cons.mpr
          ⟨helement.1, List.forall_mem_singleton.mpr helement.2.1⟩
  exact freeOf_lineFeed.mp
    (h.keeps.roleName (fun name hname => freeOf_lineFeed.mpr (hnames name hname)) role)

theorem linkedBuilder {owner : ClassDecl} {p : Property} (howner : LineFree owner.name)
    (hp : p.LineFree) (f : Facet) : LineFree (target.naming.linkedBuilder owner p f) :=
  freeOf_lineFeed.mp (h.keeps.linkedBuilder (freeOf_lineFeed.mpr howner)
    (freeOf_lineFeed.mpr hp.1) (freeOf_lineFeed.mpr hp.2) f)

theorem itemBuilder {p : Property} (hp : p.LineFree) (f : Facet) :
    LineFree (target.naming.itemBuilder p f) :=
  freeOf_lineFeed.mp (h.keeps.itemBuilder (freeOf_lineFeed.mpr hp.2) f)

theorem elementType {p : Property} (hp : p.LineFree) : LineFree (p.elementType target).text :=
  freeOf_lineFeed.mp (h.keeps.resolve (freeOf_lineFeed.mpr hp.2))

end Target.KeepsLines

/-! ## Methods -/

namespace TypeExpr

@[simp] theorem text_system (s : String) : (system s).text = s := rfl

@[simp] theorem text_user (s : String) : (user s).text = s := rfl

@[simp] theorem text_systemOf (template : String) (argument : TypeExpr) :
    (systemOf template argument).text = template ++ "<" ++ argument.text ++ ">" := rfl

@[simp] theorem text_userOf (template : String) (argument : TypeExpr) :
    (userOf template argument).text = template ++ "<" ++ argument.text ++ ">" := rfl

end TypeExpr

namespace Header

/-- The line of a statement holds no line feed. -/
def Statement.LineFree (s : Statement) : Prop :=
  ∀ line, s.layout = .line line → Text.LineFree line

/-- The texts of a method hold no line feeds, and it is no destructor. -/
structure Method.Legible (m : Method) : Prop where
  signature : LineFree m.signature.text
  start : m.signature.text.toList.head? ≠ some '~'
  body : ∀ s ∈ m.body, s.LineFree

/-- A signature starts as the template of its result does. -/
theorem Signature.head?_text {s : Signature} {template : String} {argument : TypeExpr} {c : Char}
    (hresult : s.result = .systemOf template argument) (hc : template.toList.head? = some c) :
    s.text.toList.head? = some c := by
  rw [Signature.text, hresult, TypeExpr.text_systemOf]
  simp only [String.toList_append, List.head?_append, hc, Option.some_or]

theorem Signature.no_destructor {s : Signature} {template : String} {argument : TypeExpr}
    (hresult : s.result = .systemOf template argument)
    (hc : template.toList.head? = some 's') : s.text.toList.head? ≠ some '~' := by
  rw [Signature.head?_text hresult hc]
  decide

theorem Statement.sending_eq (type : TypeExpr) (arguments : List String) :
    sending type arguments =
      "co_await SendAsync<" ++ type.text ++ ">(" ++ ", ".intercalate arguments ++ ")" := rfl

theorem exchange_lineFree {http result : String} {type : TypeExpr} (hhttp : LineFree http)
    (htype : LineFree type.text) (hresult : LineFree result) (sends : Bool) :
    ∀ s ∈ exchange http type result sends, s.LineFree := by
  cases sends <;>
    simp [LineFree, Statement.LineFree, exchange, Statement.layout, Statement.sending_eq,
      sendArguments, hhttp, htype, hresult]

theorem verbMethod_legible {type : TypeExpr} (htype : LineFree type.text) (verb : Verb) :
    (verbMethod type verb).Legible where
  signature := by
    cases verb <;>
      simp [LineFree, verbMethod, Signature.text, futureOf, parameterText, Parameter.text,
        entityParameter, tokenParameter, Parameter.constReference, Verb.returns, Verb.sends,
        Verb.methodName, htype]
  start := Signature.no_destructor rfl rfl
  body := by
    cases verb with
    | delete =>
        simp [LineFree, Statement.LineFree, verbMethod, Statement.layout, Statement.sending_eq,
          sendArguments, Verb.returns, Verb.sends, Verb.httpMethod, htype]
    | _ => exact exchange_lineFree (by decide) htype (by decide) _

theorem createRequest_legible {interface implementation : String}
    (hinterface : LineFree interface) (himplementation : LineFree implementation) :
    (createRequest interface implementation).Legible where
  signature := by
    simp [LineFree, createRequest, Signature.text, ownedPointer, parameterText, hinterface]
  start := Signature.no_destructor rfl rfl
  body := by
    simp [LineFree, Statement.LineFree, createRequest, Statement.layout, Transport.text,
      himplementation]

theorem getPage_legible {response : String} (hresponse : LineFree response) :
    (getPage response).Legible where
  signature := by
    simp [LineFree, getPage, Signature.text, futureOf, parameterText, Parameter.text,
      tokenParameter, Parameter.constReference, hresponse]
  start := Signature.no_destructor rfl rfl
  body := exchange_lineFree (by decide) (by exact hresponse) (by decide) _

theorem addItem_legible {element : TypeExpr} (helement : LineFree element.text) :
    (addItem element).Legible where
  signature := by
    simp [LineFree, addItem, Signature.text, futureOf, parameterText, Parameter.text,
      entityParameter, tokenParameter, Parameter.constReference, helement]
  start := Signature.no_destructor rfl rfl
  body := exchange_lineFree (by decide) helement (by decide) _

section

variable {target : Target} (h : target.KeepsLines) {owner : ClassDecl} {p : Property}

include h

theorem navigationMethod_legible (howner : LineFree owner.name) (hp : p.LineFree)
    (transport : Transport) : (navigationMethod target.naming transport owner p).Legible where
  signature := by
    simp [LineFree, navigationMethod, Signature.text, ownedPointer, parameterText,
      Naming.methodName, h.linkedBuilder howner hp, h.typeName hp.1]
  start := Signature.no_destructor rfl rfl
  body := by
    have htransport : LineFree transport.text := by cases transport <;> decide
    simp [LineFree, Statement.LineFree, navigationMethod, Statement.layout, Segment.text,
      Literal.wide, h.linkedBuilder howner hp, hp.1, htransport]

theorem navigationMethods_legible (howner : (Element.ofClass owner).LineFree)
    (transport : Transport) :
    ∀ m ∈ navigationMethods target.naming transport owner, m.Legible := by
  intro m hm
  obtain ⟨p, hp, rfl⟩ := List.mem_map.mp hm
  exact navigationMethod_legible h howner.1 (howner.2 p hp) transport

theorem itemAccess_legible (hp : p.LineFree) : (itemAccess target.naming p).Legible where
  signature := by
    simp [LineFree, itemAccess, Signature.text, ownedPointer, parameterText, Parameter.text,
      Parameter.constReference, wideStringType, Cpp.wideString, h.itemBuilder hp]
  start := Signature.no_destructor rfl rfl
  body := by
    simp [LineFree, Statement.LineFree, itemAccess, Statement.layout, Segment.text,
      Transport.text, h.itemBuilder hp]

end

end Header

/-! ## Contracts -/

namespace Header

/-- The texts of a contract hold no line feeds. -/
structure Contract.Legible (contract : Contract) : Prop where
  summary : LineFree contract.summary
  frameworkInterface : LineFree contract.frameworkInterface.text
  frameworkClass : LineFree contract.frameworkClass.text
  constructors : ∀ parts ∈ contract.constructors,
    LineFree (parameterText parts.1) ∧ LineFree parts.2.text
  methods : ∀ m ∈ contract.methods, m.Legible

theorem requestConstructor_lineFree {base : TypeExpr} (h : LineFree base.text) :
    LineFree (parameterText (requestConstructor base).1) ∧
      LineFree (requestConstructor base).2.text := by
  constructor
  · simp [LineFree, requestConstructor, parameterText, Parameter.text, Parameter.constReference,
      Parameter.reference, wideStringType, Cpp.wideString]
  · simp [LineFree, requestConstructor, Initializer.text, Argument.text, h]

theorem clientConstructors_lineFree {serviceUrl : String} (h : LineFree serviceUrl) :
    ∀ parts ∈ clientConstructors serviceUrl,
      LineFree (parameterText parts.1) ∧ LineFree parts.2.text := by
  have hliteral : LineFree (Literal.wide (Literal.escape serviceUrl)) := by
    simp [LineFree, Literal.wide, h.escape]
  simp only [clientConstructors, List.forall_mem_cons]
  refine ⟨⟨?_, ?_⟩, ⟨?_, ?_⟩, ⟨?_, ?_⟩, nofun⟩
  case refine_2 | refine_4 | refine_6 =>
    simp [LineFree, Initializer.text, Argument.text, hliteral]
  all_goals
    simp only [parameterText, Parameter.text, providerParameters, Parameter.constReference,
      Parameter.withDefault, sharedPointer, wideStringType, Cpp.wideString, TypeExpr.text_user,
      TypeExpr.text_system, TypeExpr.text_systemOf, List.map, String.intercalate_cons_cons,
      String.intercalate_singleton, lineFree_append]
    simp [LineFree]

section

variable {target : Target} (h : target.KeepsLines) {c : ClassDecl} {p : Property}

include h

theorem requestContract_legible (hc : (Element.ofClass c).LineFree) :
    (requestContract target.naming c).Legible where
  summary := by simp [LineFree, requestContract, h.roleName hc]
  frameworkInterface := (by decide : LineFree "IBaseRequest")
  frameworkClass := (by decide : LineFree "BaseRequest")
  constructors := by
    intro parts hparts
    obtain rfl := List.mem_singleton.mp hparts
    exact requestConstructor_lineFree (by decide : LineFree "BaseRequest")
  methods := by
    intro m hm
    obtain ⟨verb, -, rfl⟩ := List.mem_map.mp hm
    exact verbMethod_legible (by exact h.roleName hc .dataType) verb

theorem requestBuilderContract_legible (hc : (Element.ofClass c).LineFree) :
    (requestBuilderContract target.naming c).Legible where
  summary := by
    have hname := h.roleName hc .dataType
    exact lineFree_append.mpr ⟨lineFree_append.mpr ⟨by decide, hname⟩, by decide⟩
  frameworkInterface := (by decide : LineFree "IBaseRequestBuilder")
  frameworkClass := (by decide : LineFree "BaseRequestBuilder")
  constructors := by
    intro parts hparts
    obtain rfl := List.mem_singleton.mp hparts
    exact requestConstructor_lineFree (by decide : LineFree "BaseRequestBuilder")
  methods := by
    refine List.forall_mem_cons.mpr ⟨?_, navigationMethods_legible h hc .held⟩
    exact createRequest_legible (h.roleName hc _) (h.roleName hc _)

theorem clientContract_legible {serviceUrl : String} (hurl : LineFree serviceUrl)
    (hc : (Element.ofClass c).LineFree) : (clientContract ⟨target, serviceUrl⟩ c).Legible where
  summary := by
    have hname := h.roleName hc (.client .implementation)
    exact lineFree_append.mpr ⟨lineFree_append.mpr ⟨by decide, hname⟩, by decide⟩
  frameworkInterface := (by decide : LineFree "IBaseClient")
  frameworkClass := (by decide : LineFree "BaseClient")
  constructors := clientConstructors_lineFree hurl
  methods := navigationMethods_legible h hc .self

theorem collectionSummary_lineFree {what : String} (hwhat : LineFree what)
    (hp : (Element.ofProperty c p).LineFree) :
    LineFree (collectionSummary target what c p) := by
  simp [LineFree, collectionSummary, hwhat, h.elementType hp.2, h.typeName hp.1]

theorem pageContract_legible (hp : (Element.ofProperty c p).LineFree) :
    (pageContract target c p).Legible where
  summary := collectionSummary_lineFree h (by decide) hp
  frameworkInterface := by simp [LineFree, pageContract, h.elementType hp.2]
  frameworkClass := by simp [LineFree, pageContract, h.elementType hp.2]
  constructors := by
    intro parts hparts
    obtain rfl := List.mem_singleton.mp hparts
    constructor
    · simp [LineFree, parameterText, Parameter.text, Parameter.value, Target.sequenceOf,
        wideStringType, Cpp.wideString, Cpp.vector, h.elementType hp.2]
    · simp [LineFree, Initializer.text, Argument.text, h.elementType hp.2]
  methods := List.forall_mem_nil _

theorem collectionRequestContract_legible (hp : (Element.ofProperty c p).LineFree) :
    (collectionRequestContract target c p).Legible where
  summary := collectionSummary_lineFree h (by decide) hp
  frameworkInterface := (by decide : LineFree "IBaseRequest")
  frameworkClass := (by decide : LineFree "BaseRequest")
  constructors := by
    intro parts hparts
    obtain rfl := List.mem_singleton.mp hparts
    exact requestConstructor_lineFree (by decide : LineFree "BaseRequest")
  methods := by
    have hpage := getPage_legible (h.roleName hp .collectionResponse)
    have hitem := addItem_legible (h.elementType hp.2)
    exact List.forall_mem_cons.mpr ⟨hpage, List.forall_mem_singleton.mpr hitem⟩

theorem collectionRequestBuilderContract_legible (hp : (Element.ofProperty c p).LineFree) :
    (collectionRequestBuilderContract target c p).Legible where
  summary := collectionSummary_lineFree h (by decide) hp
  frameworkInterface := (by decide : LineFree "IBaseRequestBuilder")
  frameworkClass := (by decide : LineFree "BaseRequestBuilder")
  constructors := by
    intro parts hparts
    obtain rfl := List.mem_singleton.mp hparts
    exact requestConstructor_lineFree (by decide : LineFree "BaseRequestBuilder")
  methods := by
    have hcreate := createRequest_legible (h.roleName hp (.collectionRequest .interface))
      (h.roleName hp (.collectionRequest .implementation))
    exact List.forall_mem_cons.mpr
      ⟨hcreate, List.forall_mem_singleton.mpr (itemAccess_legible h hp.2)⟩

end

end Header

/-- The contracts of an element hold no line feeds if its names and types hold none. -/
theorem HasContract.legible {setting : Setting} (htarget : setting.target.KeepsLines)
    (hurl : LineFree setting.serviceUrl) {element : Element} (helement : element.LineFree)
    {role : Role} {contract : Contract} (h : HasContract setting element role contract) :
    contract.Legible := by
  cases h with
  | request c f => exact requestContract_legible htarget helement
  | requestBuilder c f => exact requestBuilderContract_legible htarget helement
  | client c f => exact clientContract_legible htarget hurl helement
  | collectionPage c p f => exact pageContract_legible htarget helement
  | collectionRequest c p f => exact collectionRequestContract_legible htarget helement
  | collectionRequestBuilder c p f =>
      exact collectionRequestBuilderContract_legible htarget helement

end SdkHeaders
