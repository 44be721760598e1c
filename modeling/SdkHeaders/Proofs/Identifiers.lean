import SdkHeaders.Proofs.ReservedWords

/-!
# Identifiers

The identifiers that are derived from the names of a model.  Whatever these names are, no identifier
is a reserved word.  A reserved word is only met by members, which keep the spelling of the model:
all other identifiers start with a capitalized name or with the capital letter of an interface.

Main results:

- Structure `Naming.Avoids` says that no derived identifier is one of some words, and theorem
  `Naming.avoids_reserved` that conventions avoid their reserved words if no respelling is reserved.
- Definition `Text.NoSmallStart` says that a text does not start with a small letter, and theorem
  `Cpp.safeName_of_noSmallStart` that such a text is never respelled.
- Theorem `Cpp.roleName_of_isInterface`: an interface is called as its implementation with a leading
  capital i.
- Theorem `Target.standard_identifiers` puts these facts together.
-/

namespace SdkHeaders

/-! ## Reserved words and their respellings -/

namespace Naming

/-- No identifier that the conventions derive is one of the words. -/
structure Avoids (naming : Naming) (words : List String) : Prop where
  typeName : ∀ name, naming.typeName name ∉ words
  memberName : ∀ name, naming.memberName name ∉ words
  enumeratorName : ∀ name, naming.enumeratorName name ∉ words
  methodName : ∀ p, naming.methodName p ∉ words
  baseType : ∀ c, ∀ base ∈ naming.baseType c, base ∉ words
  linkedBuilder : ∀ owner p f, naming.linkedBuilder owner p f ∉ words
  itemBuilder : ∀ p f, naming.itemBuilder p f ∉ words
  roleName : ∀ element role, naming.roleName element role ∉ words

variable {naming : Naming}
  (h : ∀ word ∈ naming.reserved, naming.escape word ∉ naming.reserved)

include h

/-- A safe name is not reserved if no respelling of a reserved word is. -/
theorem safeName_not_mem_reserved (name : String) : naming.safeName name ∉ naming.reserved := by
  by_cases hname : name ∈ naming.reserved
  · rw [safeName, isReserved, if_pos (List.contains_iff_mem.mpr hname)]
    exact h name hname
  · rw [safeName, isReserved, if_neg (mt List.contains_iff_mem.mp hname)]
    exact hname

/-- Conventions avoid their reserved words if no respelling of one is reserved: every identifier is
made safe as a whole. -/
theorem avoids_reserved : naming.Avoids naming.reserved where
  typeName _ := safeName_not_mem_reserved h _
  memberName _ := safeName_not_mem_reserved h _
  enumeratorName _ := safeName_not_mem_reserved h _
  methodName _ := safeName_not_mem_reserved h _
  baseType := by
    intro c base hbase
    obtain ⟨name, -, rfl⟩ := Option.map_eq_some_iff.mp hbase
    exact safeName_not_mem_reserved h _
  linkedBuilder _ _ _ := safeName_not_mem_reserved h _
  itemBuilder _ _ := safeName_not_mem_reserved h _
  roleName _ _ := safeName_not_mem_reserved h _

end Naming

/-! ## Names that do not start with a small letter -/

namespace Text

/-- A text does not start with a small letter of ASCII. -/
def NoSmallStart (s : String) : Prop :=
  ∀ first ∈ s.toList.head?, first.isLower = false

-- Only the first letter is tried, and not all characters that there are.
instance (s : String) : Decidable (NoSmallStart s) :=
  Option.decidableForallMem s.toList.head?

theorem noSmallStart_capitalize (s : String) : NoSmallStart (capitalize s) :=
  fun _ h => isLower_of_mem_head?_capitalize h

/-- What a text starts with decides unless the text is empty. -/
theorem NoSmallStart.append {s t : String} (hs : NoSmallStart s) (ht : NoSmallStart t) :
    NoSmallStart (s ++ t) := by
  intro first hfirst
  rw [String.toList_append, List.head?_append, Option.mem_def, Option.or_eq_some_iff] at hfirst
  rcases hfirst with hfirst | ⟨-, hfirst⟩
  · exact hs first hfirst
  · exact ht first hfirst

theorem NoSmallStart.faceted {s : String} (h : NoSmallStart s) (f : Facet) :
    NoSmallStart (Naming.faceted f s) := by
  cases f with
  | implementation => exact h
  | interface =>
      apply NoSmallStart.append _ h
      intro first hfirst
      cases hfirst
      rfl

end Text

open Text (NoSmallStart noSmallStart_capitalize)

namespace Role

theorem noSmallStart_suffix (role : Role) : NoSmallStart role.suffix := by
  intro first hfirst
  cases role <;> simp only [suffix] at hfirst <;> cases hfirst <;> rfl

/-- The implementation of a role is no interface, and is called with the same suffix. -/
theorem implementation_spec (role : Role) :
    role.implementation.facet = .implementation ∧ role.implementation.suffix = role.suffix := by
  constructor
  · cases role <;> rfl
  · exact suffix_withFacet role .implementation

end Role

/-! ## Identifiers of the target -/

namespace Cpp

/-- Reserved words start with a small letter. -/
theorem safeName_of_noSmallStart {name : String} (h : NoSmallStart name) :
    naming.safeName name = name := by
  apply safeName_of_not_mem
  intro hmem
  obtain ⟨first, hfirst, hlower⟩ := exists_isLower_of_mem_keywords hmem
  rw [h first hfirst] at hlower
  cases hlower

theorem noSmallStart_collectionName (owner : ClassDecl) (p : Property) :
    NoSmallStart (naming.collectionName owner p) := by
  have hnames : NoSmallStart (naming.toType owner.name ++ naming.toType p.name) :=
    (noSmallStart_capitalize owner.name).append (noSmallStart_capitalize p.name)
  apply hnames.append
  intro first hfirst
  cases hfirst
  rfl

theorem noSmallStart_baseName (element : Element) : NoSmallStart (naming.baseName element) := by
  cases element with
  | ofEnum e => exact noSmallStart_capitalize e.name
  | ofClass c => exact noSmallStart_capitalize c.name
  | ofProperty owner p => exact noSmallStart_collectionName owner p

theorem noSmallStart_linkedName (owner : ClassDecl) (p : Property) :
    NoSmallStart (naming.linkedName owner p) := by
  unfold Naming.linkedName
  split
  · exact noSmallStart_collectionName owner p
  · split
    · exact noSmallStart_capitalize p.type
    · exact noSmallStart_capitalize p.name

/-- The name of a declaration is never respelled. -/
theorem roleName_eq (element : Element) (role : Role) :
    naming.roleName element role =
      Naming.faceted role.facet (naming.baseName element ++ role.suffix) :=
  safeName_of_noSmallStart
    (((noSmallStart_baseName element).append role.noSmallStart_suffix).faceted role.facet)

/-- The name of a builder is never respelled. -/
theorem builderName_eq {base : String} (h : NoSmallStart base) (f : Facet) :
    naming.builderName f base = Naming.faceted f (base ++ "RequestBuilder") := by
  have hsuffix : NoSmallStart "RequestBuilder" := (Role.requestBuilder f).noSmallStart_suffix
  exact safeName_of_noSmallStart ((h.append hsuffix).faceted f)

/-- An interface is called as its implementation with a leading capital i: none of the two names is
respelled, so that it makes no difference when the letter is put in front. -/
theorem roleName_of_isInterface (element : Element) {role : Role}
    (h : role.isInterface = true) :
    naming.roleName element role = "I" ++ naming.roleName element role.implementation := by
  have hfacet : role.facet = .interface := of_decide_eq_true h
  obtain ⟨himplementation, hsuffix⟩ := role.implementation_spec
  rw [roleName_eq, roleName_eq, hfacet, himplementation, hsuffix]
  rfl

end Cpp

/-- For any names of a model, no identifier that the usual conventions derive is a reserved word,
names that start with a capitalized one are never respelled, and interfaces are called as their
implementations with a leading capital i. -/
theorem Target.standard_identifiers :
    Target.standard.naming.Avoids Cpp.keywords ∧
      (∀ name, Target.standard.naming.safeName (Text.capitalize name) = Text.capitalize name) ∧
      (∀ owner p f, Target.standard.naming.linkedBuilder owner p f =
        Naming.faceted f (Target.standard.naming.linkedName owner p ++ "RequestBuilder")) ∧
      (∀ p f, Target.standard.naming.itemBuilder p f =
        Naming.faceted f (Text.capitalize p.type ++ "RequestBuilder")) ∧
      (∀ element role, Target.standard.naming.roleName element role =
        Naming.faceted role.facet (Target.standard.naming.baseName element ++ role.suffix)) ∧
      ∀ element role, role.isInterface = true →
        Target.standard.naming.roleName element role =
          "I" ++ Target.standard.naming.roleName element role.implementation := by
  refine ⟨?_, ?_, ?_, ?_, Cpp.roleName_eq, ?_⟩
  · apply Naming.avoids_reserved
    intro word _
    exact Cpp.append_underscore_not_mem_keywords word
  · intro name
    exact Cpp.safeName_of_noSmallStart (noSmallStart_capitalize name)
  · intro owner p f
    exact Cpp.builderName_eq (Cpp.noSmallStart_linkedName owner p) f
  · intro p f
    exact Cpp.builderName_eq (noSmallStart_capitalize p.type) f
  · intro element role h
    exact Cpp.roleName_of_isInterface element h

/-- A class that is called as a reserved word, and so is its base. -/
def unionClass : ClassDecl where
  name := "union"
  kind := .entity
  base := some "struct"
  properties := []

/-- The identifiers of a class that is called as a reserved word. -/
theorem unionClass_identifiers :
    (Role.request .interface).isInterface = true ∧
      Target.standard.naming.roleName (.ofClass unionClass) (.request .interface) =
        "I" ++ Target.standard.naming.roleName (.ofClass unionClass) (.request .implementation) ∧
      Target.standard.naming.roleName (.ofClass unionClass) (.request .implementation) =
        "UnionRequest" ∧
      "Struct" ∈ Target.standard.naming.baseType unionClass ∧ "Struct" ∉ Cpp.keywords := by
  obtain ⟨havoids, -, -, -, hroles, hinterfaces⟩ := Target.standard_identifiers
  have hbase : "Struct" ∈ Target.standard.naming.baseType unionClass := by decide +kernel
  refine ⟨rfl, hinterfaces _ _ rfl, ?_, hbase, havoids.baseType unionClass _ hbase⟩
  rw [hroles]
  decide +kernel

end SdkHeaders
