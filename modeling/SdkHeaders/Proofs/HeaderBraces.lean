import SdkHeaders.Proofs.ClosedCode
import SdkHeaders.Proofs.References

/-!
# Braces of headers

The braces of every header of a model are balanced, provided that no text of the model and no
character of the address of the service is a brace.  All words of a header are fixed or made from
these texts, and nothing that is made from texts without braces holds any.

Main results:

- Definition `Model.texts` lists the texts of a model.
- Theorem `Refers.braceFree`: the names that a header refers to hold no braces.
- Theorem `Rendered.braceFree_words`: the words that a header is spelled with hold no braces.
- Theorem `Model.balanced_headers`: the braces of each header are balanced.
-/

namespace SdkHeaders

open Header Text

/-! ## Texts of a model -/

/-- The texts that a property is declared with. -/
def Property.texts (p : Property) : List String :=
  p.name :: p.type :: p.description.toList

/-- The texts that a class is declared with. -/
def ClassDecl.texts (c : ClassDecl) : List String :=
  c.name :: (c.base.toList ++ c.properties.flatMap Property.texts)

/-- The texts that an enumeration is declared with. -/
def EnumDecl.texts (e : EnumDecl) : List String :=
  e.name :: e.members.map EnumMember.name

/-- The texts of a model. -/
def Model.texts (model : Model) : List String :=
  model.space :: (model.enums.flatMap EnumDecl.texts ++ model.classes.flatMap ClassDecl.texts)

/-- The texts that an element is declared with; a collection belongs to a class. -/
def Element.texts : Element → List String
  | .ofEnum e => e.texts
  | .ofClass c => c.texts
  | .ofProperty owner p => owner.name :: p.texts

theorem Element.names_subset_texts (element : Element) : element.names ⊆ element.texts := by
  cases element <;> simp [names, texts, EnumDecl.texts, ClassDecl.texts, Property.texts]

theorem ClassDecl.texts_of_mem {c : ClassDecl} {p : Property} (hp : p ∈ c.properties) :
    p.texts ⊆ c.texts := fun _ hs =>
  List.mem_cons_of_mem _ (List.mem_append_right _ (List.mem_flatMap_of_mem hp hs))

section Model

variable {model : Model}

theorem Model.texts_of_mem_classes {c : ClassDecl} (hc : c ∈ model.classes) :
    c.texts ⊆ model.texts := fun _ hs =>
  List.mem_cons_of_mem _ (List.mem_append_right _ (List.mem_flatMap_of_mem hc hs))

theorem Model.texts_of_mem_bindings {element : Element} {role : Role}
    (h : (element, role) ∈ model.bindings) : element.texts ⊆ model.texts := by
  cases element with
  | ofEnum e =>
      intro s hs
      have he := (mem_bindings_ofEnum.mp h).1
      exact List.mem_cons_of_mem _ (List.mem_append_left _ (List.mem_flatMap_of_mem he hs))
  | ofClass c => exact texts_of_mem_classes (mem_bindings_ofClass.mp h).1
  | ofProperty c p =>
      obtain ⟨hc, hp, -⟩ := mem_bindings_ofProperty.mp h
      have hproperty := (ClassDecl.mem_boundCollections_iff.mp hp).2.1
      refine List.cons_subset.mpr ⟨texts_of_mem_classes hc List.mem_cons_self, ?_⟩
      exact List.Subset.trans (ClassDecl.texts_of_mem hproperty) (texts_of_mem_classes hc)

/-- The names of a model are texts of it. -/
theorem Model.namesFreeOf_of_texts {marks : List Char} (h : ∀ s ∈ model.texts, FreeOf marks s) :
    model.NamesFreeOf marks where
  enums e he := h e.name (List.mem_cons_of_mem _
    (List.mem_append_left _ (List.mem_flatMap_of_mem he List.mem_cons_self)))
  classes c hc := h c.name (texts_of_mem_classes hc List.mem_cons_self)
  bases c hc b hb := h b
    (texts_of_mem_classes hc (List.mem_cons_of_mem _ (List.mem_append_left _ hb)))
  properties c hc p hp := by
    have htexts : ∀ s ∈ p.texts, FreeOf marks s := fun s hs =>
      h s (texts_of_mem_classes hc (ClassDecl.texts_of_mem hp hs))
    simp only [Property.texts, List.forall_mem_cons] at htexts
    exact ⟨htexts.1, htexts.2.1⟩

end Model

/-! ## Names -/

/-- The usual target adds no braces to names. -/
theorem Target.standard_keeps_braces : Target.standard.Keeps ['\x7b', '\x7d'] where
  toKeeps := Cpp.naming_keeps (by decide) (by decide)
  spellings := by
    simp only [standard, Cpp.primitiveTypes, List.forall_mem_cons, List.not_mem_nil,
      false_implies, implies_true, and_true]
    and_intros <;> exact .ofList rfl

theorem braceFree_roleName {element : Element} (h : ∀ s ∈ element.texts, BraceFree s)
    (role : Role) : BraceFree (Target.standard.naming.roleName element role) :=
  Target.standard_keeps_braces.roleName
    (fun name hname => h name (element.names_subset_texts hname)) role

theorem braceFree_memberName {name : String} (h : BraceFree name) :
    BraceFree (Target.standard.naming.memberName name) :=
  Target.standard_keeps_braces.safeName (by exact h)

/-- The names and the headers of the standard library hold no braces. -/
theorem Cpp.braceFree_systemHeaders : ∀ row ∈ systemHeaders, BraceFree row.1 ∧ BraceFree row.2 := by
  simp only [systemHeaders, List.forall_mem_cons, List.not_mem_nil, false_implies, implies_true,
    and_true]
  and_intros <;> exact .ofList rfl

/-- The types of the framework hold no braces. -/
theorem Cpp.braceFree_frameworkTypes : ∀ x ∈ frameworkTypes, BraceFree x := by
  simp only [frameworkTypes, List.forall_mem_cons, List.not_mem_nil, false_implies, implies_true,
    and_true]
  and_intros <;> exact .ofList rfl

theorem IntType.braceFree_spelling (t : IntType) : BraceFree t.spelling := by
  obtain ⟨signed, width⟩ := t
  cases signed <;> cases width <;> decide

/-- The names that a header refers to hold no braces if the texts of the model hold none. -/
theorem Refers.braceFree {model : Model} (hmodel : ∀ s ∈ model.texts, BraceFree s)
    {element : Element} {role : Role} {n : TypeName} (h : Refers model .standard element role n) :
    BraceFree n.text := by
  cases n with
  | user x =>
      exact h.freeOf Target.standard_keeps_braces.toKeeps (Model.namesFreeOf_of_texts hmodel)
        Cpp.braceFree_frameworkTypes
  | system s =>
      cases h with
      | library hs =>
          obtain ⟨row, hrow, rfl⟩ := List.mem_map.mp hs
          exact (Cpp.braceFree_systemHeaders row hrow).1
      | integer => exact IntType.braceFree_spelling _
      | @primitive _ _ c p _ hc hp hprimitive =>
          have hnames := (Model.namesFreeOf_of_texts hmodel).properties c hc p hp
          have hspelling := Target.standard_keeps_braces.resolve hnames.2
          rwa [Target.resolve, hprimitive] at hspelling

/-! ## Contracts -/

namespace Header

/-- The words that a contract is spelled with. -/
def Contract.words (contract : Contract) : List String :=
  contract.summary ::
    ((contract.constructors.flatMap fun parts =>
        parts.1.flatMap Parameter.words ++ parts.2.words) ++
      contract.methods.flatMap Method.words)

/-- The declarations of a contract are spelled with its words. -/
theorem Contract.braceFree_words {contract : Contract} {name : String} (hname : BraceFree name)
    (h : ∀ w ∈ contract.words, BraceFree w) (interface : String) (facet : Facet) :
    ∀ w ∈ (contract.declaration name interface facet).words, BraceFree w := by
  simp only [words, List.forall_mem_cons, List.forall_mem_append] at h
  obtain ⟨hsummary, hconstructors, hmethods⟩ := h
  cases facet with
  | interface =>
      have hlower : BraceFree (interfaceSummary contract.summary) :=
        .append (.ofList rfl) (hsummary.lowerFirst (by decide))
      refine List.forall_mem_cons.mpr ⟨hlower, List.forall_mem_cons.mpr ⟨hname, ?_⟩⟩
      refine List.forall_mem_cons.mpr ⟨hname, fun w hw => ?_⟩
      obtain ⟨m, hm, hw⟩ := List.mem_flatMap.mp hw
      split at hm
      · cases hm
      · obtain rfl := List.mem_singleton.mp hm
        obtain ⟨s, hs, hw⟩ := List.mem_flatMap.mp hw
        obtain ⟨method, hmethod, rfl⟩ := List.mem_map.mp hs
        exact hmethods w (List.mem_flatMap_of_mem hmethod (List.mem_append_left _ hw))
  | implementation =>
      refine List.forall_mem_cons.mpr ⟨hsummary, List.forall_mem_cons.mpr ⟨hname, fun w hw => ?_⟩⟩
      obtain ⟨m, hm, hw⟩ := List.mem_flatMap.mp hw
      rcases List.mem_append.mp hm with hm | hm
      · obtain ⟨parts, hparts, rfl⟩ := List.mem_map.mp hm
        rcases List.mem_cons.mp hw with rfl | hw
        · exact hname
        · exact hconstructors w (List.mem_flatMap_of_mem hparts hw)
      · rcases List.mem_cons.mp hm with rfl | hm
        · exact List.mem_singleton.mp hw ▸ hname
        · obtain ⟨method, hmethod, rfl⟩ := List.mem_map.mp hm
          exact hmethods w (List.mem_flatMap_of_mem hmethod hw)

theorem braceFree_requestConstructor (base : TypeExpr) :
    ∀ w ∈ (requestConstructor base).1.flatMap Parameter.words ++ (requestConstructor base).2.words,
      BraceFree w := by
  have hfixed : ∀ w ∈ ["requestUrl", "baseClient"], BraceFree w := by decide
  exact List.forall_mem_append.mpr ⟨hfixed, hfixed⟩

theorem braceFree_clientConstructors {serviceUrl : String} (h : BraceFree serviceUrl) :
    ∀ w ∈ (clientConstructors serviceUrl).flatMap fun parts =>
      parts.1.flatMap Parameter.words ++ parts.2.words, BraceFree w := by
  have hfixed : ∀ w ∈ ["baseUrl", "authenticationProvider", "httpProvider", "nullptr",
      "httpClient"], BraceFree w := by decide
  intro w hw
  have hmem : w ∈ serviceUrl :: ["baseUrl", "authenticationProvider", "httpProvider", "nullptr",
      "httpClient"] := by
    revert w
    simp [clientConstructors, providerParameters, Parameter.words, Parameter.constReference,
      Parameter.withDefault, Initializer.words, Argument.word]
  rcases List.mem_cons.mp hmem with rfl | hmem
  · exact h
  · exact hfixed w hmem

theorem braceFree_verbMethod (type : TypeExpr) (verb : Verb) :
    ∀ w ∈ (verbMethod type verb).words, BraceFree w := by
  -- No word depends on the type.
  have hfixed : ∀ verb ∈ Verb.all, ∀ w ∈ (verbMethod (.system "void") verb).words,
      BraceFree w := by decide
  cases verb <;> exact hfixed _ (by decide)

theorem braceFree_createRequest (interface implementation : String) :
    ∀ w ∈ (createRequest interface implementation).words, BraceFree w := by
  have hfixed : ∀ w ∈ ["CreateRequest", "baseUrl"], BraceFree w := by decide
  exact hfixed

theorem braceFree_getPage (response : String) : ∀ w ∈ (getPage response).words, BraceFree w := by
  have hfixed : ∀ w ∈ (getPage "").words, BraceFree w := by decide
  exact hfixed

theorem braceFree_addItem (element : TypeExpr) : ∀ w ∈ (addItem element).words, BraceFree w := by
  have hfixed : ∀ w ∈ (addItem (.system "void")).words, BraceFree w := by decide
  exact hfixed

theorem braceFree_itemAccess (naming : Naming) (p : Property) :
    ∀ w ∈ (itemAccess naming p).words, BraceFree w := by
  have hfixed : ∀ w ∈ ["Item", "id", "id", "requestUrl"], BraceFree w := by decide
  exact hfixed

section Elements

variable {c : ClassDecl} {p : Property}

theorem braceFree_navigationMethods (hc : ∀ s ∈ c.texts, BraceFree s) (transport : Transport) :
    ∀ m ∈ navigationMethods Target.standard.naming transport c, ∀ w ∈ m.words, BraceFree w := by
  intro m hm
  obtain ⟨p, hp, rfl⟩ := List.mem_map.mp hm
  have hname : BraceFree p.name :=
    hc _ (ClassDecl.texts_of_mem (ClassDecl.mem_navigations_iff.mp hp).1 List.mem_cons_self)
  have hmethod := Target.standard_keeps_braces.typeName hname
  have hurl : BraceFree "requestUrl" := .ofList rfl
  refine List.forall_mem_append.mpr ⟨List.forall_mem_singleton.mpr hmethod, ?_⟩
  exact List.forall_mem_cons.mpr ⟨hname, List.forall_mem_singleton.mpr hurl⟩

theorem braceFree_requestContract (hc : ∀ s ∈ c.texts, BraceFree s) :
    ∀ w ∈ (requestContract Target.standard.naming c).words, BraceFree w := by
  have hentity := @braceFree_roleName (.ofClass c) hc .dataType
  have hsummary : BraceFree (requestContract Target.standard.naming c).summary :=
    hentity.enclosed rfl rfl
  refine List.forall_mem_cons.mpr ⟨hsummary, List.forall_mem_append.mpr ⟨?_, fun w hw => ?_⟩⟩
  · exact braceFree_requestConstructor (.user "BaseRequest")
  · obtain ⟨m, hm, hw⟩ := List.mem_flatMap.mp hw
    obtain ⟨verb, -, rfl⟩ := List.mem_map.mp hm
    exact braceFree_verbMethod _ verb w hw

theorem braceFree_requestBuilderContract (hc : ∀ s ∈ c.texts, BraceFree s) :
    ∀ w ∈ (requestBuilderContract Target.standard.naming c).words, BraceFree w := by
  have hentity := @braceFree_roleName (.ofClass c) hc .dataType
  have hsummary : BraceFree (requestBuilderContract Target.standard.naming c).summary :=
    hentity.enclosed rfl rfl
  refine List.forall_mem_cons.mpr ⟨hsummary, List.forall_mem_append.mpr ⟨?_, fun w hw => ?_⟩⟩
  · exact braceFree_requestConstructor (.user "BaseRequestBuilder")
  · obtain ⟨m, hm, hw⟩ := List.mem_flatMap.mp hw
    rcases List.mem_cons.mp hm with rfl | hm
    · exact braceFree_createRequest _ _ w hw
    · exact braceFree_navigationMethods hc .held m hm w hw

theorem braceFree_clientContract {serviceUrl : String} (hurl : BraceFree serviceUrl)
    (hc : ∀ s ∈ c.texts, BraceFree s) :
    ∀ w ∈ (clientContract ⟨.standard, serviceUrl⟩ c).words, BraceFree w := by
  have hclient := @braceFree_roleName (.ofClass c) hc (.client .implementation)
  have hsummary : BraceFree (clientContract ⟨.standard, serviceUrl⟩ c).summary :=
    hclient.enclosed rfl rfl
  refine List.forall_mem_cons.mpr ⟨hsummary, List.forall_mem_append.mpr ⟨?_, fun w hw => ?_⟩⟩
  · exact braceFree_clientConstructors hurl
  · obtain ⟨m, hm, hw⟩ := List.mem_flatMap.mp hw
    exact braceFree_navigationMethods hc .self m hm w hw

theorem braceFree_collectionSummary (hp : ∀ s ∈ (Element.ofProperty c p).texts, BraceFree s)
    {what : String} (hwhat : BraceFree what) :
    BraceFree (collectionSummary .standard what c p) := by
  simp only [Element.texts, Property.texts, List.forall_mem_cons] at hp
  have hkeeps := Target.standard_keeps_braces
  have hof := (hwhat.append (t := " ") (.ofList rfl)).append (hkeeps.resolve hp.2.2.1)
  have hfor := (hof.append (t := " collection for ") (.ofList rfl)).append
    (hkeeps.typeName hp.1)
  exact hfor.append (.ofList rfl)

theorem braceFree_pageContract (hp : ∀ s ∈ (Element.ofProperty c p).texts, BraceFree s) :
    ∀ w ∈ (pageContract .standard c p).words, BraceFree w := by
  have hfixed : ∀ w ∈ ["items", "nextLink", "items", "nextLink"], BraceFree w := by decide
  exact List.forall_mem_cons.mpr
    ⟨braceFree_collectionSummary hp (.ofList rfl), hfixed⟩

theorem braceFree_collectionRequestContract
    (hp : ∀ s ∈ (Element.ofProperty c p).texts, BraceFree s) :
    ∀ w ∈ (collectionRequestContract .standard c p).words, BraceFree w := by
  have hsummary : BraceFree (collectionSummary .standard "A request for" c p) :=
    braceFree_collectionSummary hp (.ofList rfl)
  refine List.forall_mem_cons.mpr ⟨hsummary, List.forall_mem_append.mpr ⟨?_, ?_⟩⟩
  · exact braceFree_requestConstructor (.user "BaseRequest")
  · refine List.forall_mem_append.mpr ⟨braceFree_getPage _, ?_⟩
    exact List.forall_mem_append.mpr ⟨braceFree_addItem _, List.forall_mem_nil _⟩

theorem braceFree_collectionRequestBuilderContract
    (hp : ∀ s ∈ (Element.ofProperty c p).texts, BraceFree s) :
    ∀ w ∈ (collectionRequestBuilderContract .standard c p).words, BraceFree w := by
  have hsummary : BraceFree (collectionSummary .standard "A request builder for" c p) :=
    braceFree_collectionSummary hp (.ofList rfl)
  refine List.forall_mem_cons.mpr ⟨hsummary, List.forall_mem_append.mpr ⟨?_, ?_⟩⟩
  · exact braceFree_requestConstructor (.user "BaseRequestBuilder")
  · refine List.forall_mem_append.mpr ⟨braceFree_createRequest _ _, ?_⟩
    exact List.forall_mem_append.mpr ⟨braceFree_itemAccess _ p, List.forall_mem_nil _⟩

end Elements

end Header

/-- The words of the contract of an element hold no braces if its texts hold none. -/
theorem HasContract.braceFree_words {serviceUrl : String} (hurl : BraceFree serviceUrl)
    {element : Element} {role : Role} {contract : Contract}
    (h : HasContract (Model.standardSetting serviceUrl) element role contract)
    (helement : ∀ s ∈ element.texts, BraceFree s) : ∀ w ∈ contract.words, BraceFree w := by
  cases h with
  | request c f => exact braceFree_requestContract helement
  | requestBuilder c f => exact braceFree_requestBuilderContract helement
  | client c f => exact braceFree_clientContract hurl helement
  | collectionPage c p f => exact braceFree_pageContract helement
  | collectionRequest c p f => exact braceFree_collectionRequestContract helement
  | collectionRequestBuilder c p f => exact braceFree_collectionRequestBuilderContract helement

/-! ## Data types -/

theorem Property.braceFree_summary {p : Property} (h : ∀ s ∈ p.texts, BraceFree s) :
    BraceFree p.summary := by
  simp only [texts, List.forall_mem_cons] at h
  obtain ⟨hname, -, hdescription⟩ := h
  have hgiven : BraceFree (p.description.getD "") := by
    cases hsome : p.description with
    | none => exact .ofList rfl
    | some description => exact hdescription description (by simp [hsome])
  unfold summary
  dsimp only
  split
  · exact (hname.splitWords (by decide) (by decide)).enclosed rfl rfl
  · exact hgiven.trim

section Class

variable {c : ClassDecl} (h : ∀ s ∈ c.texts, BraceFree s)

include h

theorem ClassDecl.braceFree_memberFields :
    ∀ m ∈ memberFields .standard c, ∀ w ∈ m.words, BraceFree w := by
  refine List.forall_mem_append.mpr ⟨?_, ?_⟩
  · intro m hm
    obtain ⟨p, hp, rfl⟩ := List.mem_map.mp hm
    have htexts : ∀ s ∈ p.texts, BraceFree s := fun s hs => h s (texts_of_mem hp hs)
    exact List.forall_mem_cons.mpr ⟨Property.braceFree_summary htexts,
      List.forall_mem_singleton.mpr (braceFree_memberName (htexts p.name List.mem_cons_self))⟩
  · have hroot : ∀ m ∈ rootMembers, ∀ w ∈ m.words, BraceFree w := by decide
    split
    · exact List.forall_mem_nil _
    · exact hroot

theorem ClassDecl.braceFree_reading :
    ∀ step ∈ classReading .standard c, ∀ w ∈ step.words, BraceFree w := by
  have hkeeps := Target.standard_keeps_braces
  refine List.forall_mem_append.mpr ⟨List.forall_mem_append.mpr ⟨?_, ?_⟩, ?_⟩
  · intro step hstep
    obtain ⟨base, hbase, rfl⟩ := List.mem_map.mp hstep
    obtain ⟨b, hb, rfl⟩ := Option.map_eq_some_iff.mp (Option.mem_toList.mp hbase)
    have hmem : b ∈ c.texts := List.mem_cons_of_mem _ (List.mem_append_left _ (by simp [hb]))
    exact List.forall_mem_singleton.mpr (hkeeps.typeName (h b hmem))
  · intro step hstep
    obtain ⟨p, hp, rfl⟩ := List.mem_map.mp hstep
    have htexts : ∀ s ∈ p.texts, BraceFree s := fun s hs => h s (texts_of_mem hp hs)
    simp only [Property.texts, List.forall_mem_cons] at htexts
    refine List.forall_mem_cons.mpr ⟨htexts.1, List.forall_mem_cons.mpr
      ⟨braceFree_memberName htexts.1, ?_⟩⟩
    split
    · exact List.forall_mem_singleton.mpr (hkeeps.resolve htexts.2.1)
    · exact List.forall_mem_nil _
  · have htag : ∀ w ∈ ["@odata.type", "odata"], BraceFree w := by decide
    split
    · exact List.forall_mem_nil _
    · exact List.forall_mem_singleton.mpr htag

/-- The words of the data type of a class hold no braces if the texts of the class hold none. -/
theorem ClassDecl.braceFree_words : ∀ w ∈ (c.dataEntity .standard).words, BraceFree w := by
  have hname := @braceFree_roleName (.ofClass c) h .dataType
  have hsummary := hname.append (t := " model type.") (.ofList rfl)
  have hfields := List.forall_mem_flatMap.mpr (braceFree_memberFields h)
  have hsteps := List.forall_mem_flatMap.mpr (braceFree_reading h)
  refine List.forall_mem_append.mpr ⟨List.forall_mem_cons.mpr
    ⟨hsummary, List.forall_mem_cons.mpr ⟨hname, hfields⟩⟩, ?_⟩
  exact List.forall_mem_append.mpr
    ⟨List.forall_mem_cons.mpr ⟨hname, hsteps⟩, List.forall_mem_nil _⟩

end Class

theorem braceFree_flagFunctions {name : String} (hname : BraceFree name) :
    ∀ f ∈ flagFunctions name, ∀ w ∈ f.words, BraceFree w := by
  have hoperators : ∀ w ∈ ["|", "&"], BraceFree w := by decide
  simp only [flagFunctions, FreeFunction.words, List.forall_mem_cons] at hoperators ⊢
  exact ⟨⟨hname, hoperators.1, List.forall_mem_nil _⟩,
    ⟨hname, hoperators.2.1, List.forall_mem_nil _⟩, ⟨hname, List.forall_mem_nil _⟩,
    List.forall_mem_nil _⟩

section Enum

variable {e : EnumDecl} (h : ∀ s ∈ e.texts, BraceFree s)

include h

theorem EnumDecl.braceFree_member {member : EnumMember} (hmember : member ∈ e.members) :
    BraceFree member.name ∧ BraceFree (Target.standard.naming.enumeratorName member.name) := by
  have hname : BraceFree member.name :=
    h _ (List.mem_cons_of_mem _ (List.mem_map_of_mem hmember))
  exact ⟨hname, Target.standard_keeps_braces.typeName hname⟩

theorem EnumDecl.braceFree_enumFunctions {name : String} (hname : BraceFree name) :
    ∀ f ∈ enumFunctions .standard name e, ∀ w ∈ f.words, BraceFree w := by
  have harms : ∀ arm ∈ enumeratorArms .standard e, ∀ w ∈ [arm.1, arm.2], BraceFree w := by
    intro arm harm
    obtain ⟨member, hmember, rfl⟩ := List.mem_map.mp harm
    obtain ⟨htext, henumerator⟩ := braceFree_member h hmember
    exact List.forall_mem_cons.mpr ⟨henumerator, List.forall_mem_singleton.mpr htext⟩
  have hread := List.forall_mem_singleton.mpr hname
  have hparse := List.forall_mem_cons.mpr ⟨hname, List.forall_mem_flatMap.mpr harms⟩
  unfold enumFunctions
  split
  · exact List.forall_mem_append.mpr ⟨braceFree_flagFunctions hname, List.forall_mem_cons.mpr
      ⟨hparse, List.forall_mem_singleton.mpr hread⟩⟩
  · exact List.forall_mem_cons.mpr ⟨hparse, List.forall_mem_singleton.mpr hread⟩

/-- The words of the data type of an enumeration hold no braces if the texts of the enumeration
hold none. -/
theorem EnumDecl.braceFree_words : ∀ w ∈ (e.dataEntity .standard).words, BraceFree w := by
  have hname := @braceFree_roleName (.ofEnum e) h .dataType
  have hsummary := hname.append (t := " model enumeration.") (.ofList rfl)
  have hfunctions := List.forall_mem_flatMap.mpr (braceFree_enumFunctions h hname)
  refine List.forall_mem_append.mpr ⟨List.forall_mem_cons.mpr
    ⟨hsummary, List.forall_mem_cons.mpr ⟨hname, ?_⟩⟩, hfunctions⟩
  intro w hw
  obtain ⟨m, hm, hw⟩ := List.mem_flatMap.mp hw
  simp only [dataEntity] at hm
  split at hm
  · cases hm
  · obtain rfl := List.mem_singleton.mp hm
    obtain ⟨entry, hentry, rfl⟩ := List.mem_map.mp hw
    obtain ⟨member, hmember, rfl⟩ := List.mem_map.mp hentry
    exact (braceFree_member h hmember).2

end Enum

/-- The words of the answer with a page hold no braces if the texts of the collection hold none. -/
theorem braceFree_responseEntity {c : ClassDecl} {p : Property}
    (h : ∀ s ∈ (Element.ofProperty c p).texts, BraceFree s) :
    ∀ w ∈ (responseEntity .standard c p).words, BraceFree w := by
  have hname := braceFree_roleName h .collectionResponse
  have hsummary : BraceFree (collectionSummary .standard "A response for" c p) :=
    braceFree_collectionSummary h (.ofList rfl)
  simp only [Element.texts, Property.texts, List.forall_mem_cons] at h
  have helement := Target.standard_keeps_braces.resolve h.2.2.1
  have hfields : ∀ w ∈ ["The value.", "value", "The next link.", "nextLink"], BraceFree w := by
    decide
  have hkeys : ∀ w ∈ ["value", "value"], BraceFree w := by decide
  have hlink : ∀ w ∈ ["@odata.nextLink", "nextLink"], BraceFree w := by decide
  refine List.forall_mem_append.mpr ⟨List.forall_mem_cons.mpr
    ⟨hsummary, List.forall_mem_cons.mpr ⟨hname, hfields⟩⟩, ?_⟩
  refine List.forall_mem_append.mpr ⟨List.forall_mem_cons.mpr ⟨hname, ?_⟩, List.forall_mem_nil _⟩
  exact List.forall_mem_append.mpr
    ⟨List.forall_mem_append.mpr ⟨hkeys, List.forall_mem_singleton.mpr helement⟩, hlink⟩

/-! ## The headers of a model -/

section Rendered

variable {serviceUrl : String} {element : Element} {role : Role} {names : List TypeName}
  {e : Entity}

/-- The words that a header is spelled with hold no braces if the texts of its element and the
address of the service hold none. -/
theorem Rendered.braceFree_words (hurl : BraceFree serviceUrl)
    (helement : ∀ s ∈ element.texts, BraceFree s)
    (h : Rendered (Model.standardSetting serviceUrl) element role names e) :
    ∀ w ∈ e.words, BraceFree w := by
  cases h with
  | enumData e => exact EnumDecl.braceFree_words helement
  | classData c => exact ClassDecl.braceFree_words helement
  | response c p => exact braceFree_responseEntity helement
  | facet hcontract =>
      refine List.forall_mem_append.mpr ⟨?_, List.forall_mem_nil _⟩
      exact Contract.braceFree_words (braceFree_roleName helement role)
        (hcontract.braceFree_words hurl helement) _ _

/-- The headers that a header includes have names without braces if the texts of the model hold
none. -/
theorem Rendered.braceFree_includes {model : Model} (hmodel : ∀ s ∈ model.texts, BraceFree s)
    (hmem : (element, role) ∈ model.bindings)
    (h : Rendered (Model.standardSetting serviceUrl) element role names e) :
    (∀ header ∈ (e.includes .standard).system.toList, BraceFree header) ∧
      ∀ header ∈ (e.includes .standard).user.toList, BraceFree header := by
  constructor
  · intro header hheader
    obtain ⟨s, -, hheader⟩ := Dependencies.mem_system_includes.mp hheader
    obtain ⟨row, hrow, rfl⟩ := List.mem_map.mp hheader
    exact (Cpp.braceFree_systemHeaders row (List.mem_filter.mp hrow).1).2
  · intro header hheader
    obtain ⟨x, hx, rfl⟩ := h.exists_of_mem_includes hheader
    have hname : BraceFree x := (h.refers hmem _ hx).braceFree hmodel
    exact (hname.append (.ofList rfl)).append (.ofList rfl)

/-- The braces of a header are balanced if the texts of the model and the address of the service
hold none. -/
theorem Rendered.balanced_fileText {model : Model} (hmodel : ∀ s ∈ model.texts, BraceFree s)
    (hurl : BraceFree serviceUrl) (hmem : (element, role) ∈ model.bindings)
    (h : Rendered (Model.standardSetting serviceUrl) element role names e) :
    Balanced (e.fileText .standard model.headerSpace).toList := by
  have hspace : BraceFree model.headerSpace :=
    (hmodel model.space List.mem_cons_self).titleizeNamespace (by decide) (by decide)
  obtain ⟨hsystem, huser⟩ := h.braceFree_includes hmodel hmem
  have hwords := h.braceFree_words hurl
    fun s hs => hmodel s (Model.texts_of_mem_bindings hmem hs)
  refine e.balanced_fileText (.ofList rfl) hspace hsystem huser hwords fun n hn => ?_
  rcases List.mem_cons.mp (h.mentions_subset hn) with rfl | hn
  · exact .ofList rfl
  · exact (h.refers hmem n hn).braceFree hmodel

end Rendered

/-- Every descriptor of a model has a header with balanced braces if neither the texts of the model
nor the address of the service hold braces. -/
theorem Model.balanced_headers {model : Model} {serviceUrl : String}
    (hmodel : ∀ s ∈ model.texts, BraceFree s) (hurl : BraceFree serviceUrl) :
    ∃ ds, model.bind = .ok ds ∧ ∀ d ∈ ds, ∃ e, d.render (standardSetting serviceUrl) = .ok e ∧
      Balanced (e.fileText .standard model.headerSpace).toList := by
  obtain ⟨ds, hds⟩ := model.exists_bind
  refine ⟨ds, hds, fun d hd => ?_⟩
  obtain ⟨e, he⟩ := d.render_isOk (standardSetting serviceUrl)
  obtain ⟨names, hrendered⟩ := Descriptor.render_eq_ok_iff.mp he
  have hmem : (d.element, d.role) ∈ model.bindings :=
    (mem_bindings_iff hds).mpr ⟨d, hd, rfl, rfl⟩
  exact ⟨e, he, hrendered.balanced_fileText hmodel hurl hmem⟩

/-! ## A catalog -/

/-- A model with flags, a container, and an entity that refers to both. -/
def catalogModel : Model :=
  let genre : EnumDecl := ⟨"genre", true, [⟨"prose", some 1⟩, ⟨"verse", some (-2)⟩]⟩
  let books : Property := ⟨"books", "book", true, true, some "All books.", ""⟩
  let library : ClassDecl := ⟨"library", .container, none, [books]⟩
  let genres : Property := ⟨"genres", "genre", true, false, none, ""⟩
  let book : ClassDecl := ⟨"book", .entity, none, [genres]⟩
  (((Model.new "demo.catalog").addEnum genre).addClass library).addClass book

/-- The braces of the headers of the catalog are balanced, since its texts hold none. -/
theorem catalogModel_balanced_headers :
    (∀ s ∈ catalogModel.texts, BraceFree s) ∧ BraceFree Model.defaultServiceUrl ∧
      ∃ ds, catalogModel.bind = .ok ds ∧ ∀ d ∈ ds, ∃ e,
        d.render (Model.standardSetting Model.defaultServiceUrl) = .ok e ∧
          Balanced (e.fileText .standard catalogModel.headerSpace).toList := by
  have hmodel : ∀ s ∈ catalogModel.texts, BraceFree s := by decide
  have hurl : BraceFree Model.defaultServiceUrl := by decide
  exact ⟨hmodel, hurl, Model.balanced_headers hmodel hurl⟩

end SdkHeaders
