import SdkHeaders.Derive.Naming

/-!
# Binding elements to roles

Which declarations a model gives rise to, in which order, and whether their names can stand
side by side.

Main results:

- Definition `Model.bindings` lists the pairs of elements and roles of a model.
- Definition `Model.bind` turns them into descriptors.
- Definition `checkUnique` finds the first descriptor whose name is taken.
-/

namespace SdkHeaders

/-! ## Bindings -/

/-- The roles of a class. -/
def ClassDecl.roles (c : ClassDecl) : List Role :=
  match c.kind with
  | .complex => [.dataType]
  | .entity => Role.ofEntity
  | .container => Role.ofContainer

/-- The properties of a class that are given collection roles; a complex class gives none. -/
def ClassDecl.boundCollections (c : ClassDecl) : List Property :=
  if c.kind = .complex then [] else c.collectionNavigations

/-- The bindings of a class: its own roles, then those of its collections. -/
def ClassDecl.bindings (c : ClassDecl) : List (Element × Role) :=
  c.roles.map (fun role => (.ofClass c, role)) ++
    c.boundCollections.flatMap fun p => Role.ofCollection.map fun role => (.ofProperty c p, role)

/-- The bindings of a model: those of its enumerations, then those of its classes. -/
def Model.bindings (model : Model) : List (Element × Role) :=
  model.enums.map (fun e => (.ofEnum e, .dataType)) ++ model.classes.flatMap (·.bindings)

/-- The descriptors of a model. -/
def Model.bind (model : Model) : Derived (List Descriptor) :=
  model.bindings.mapM fun pair => Descriptor.new pair.1 pair.2

/-! ## Unique names -/

/-- Find the first descriptor whose name is among the names already claimed. -/
def claimNames (nameOf : Descriptor → String) (claimed : List (String × Claimant)) :
    List Descriptor → Derived Unit
  | [] => .ok ()
  | d :: rest =>
      match claimed.lookup (nameOf d) with
      | some first => .error (.duplicateName (nameOf d) first d)
      | none => claimNames nameOf ((nameOf d, .descriptor d) :: claimed) rest

/-- Find the first descriptor whose name is a name of the framework or the name of an earlier
descriptor. -/
def checkUnique (naming : Naming) (framework : List String) (ds : List Descriptor) :
    Derived Unit :=
  claimNames naming.descriptorName (framework.map fun name => (name, .framework name)) ds

/-- Descriptors whose names are pairwise distinct and not claimed pass. -/
theorem claimNames_eq_ok_iff (nameOf : Descriptor → String)
    (claimed : List (String × Claimant)) (ds : List Descriptor) :
    claimNames nameOf claimed ds = .ok () ↔
      (ds.map nameOf).Nodup ∧ ∀ d ∈ ds, nameOf d ∉ claimed.map Prod.fst := by
  induction ds generalizing claimed with
  | nil => simp [claimNames]
  | cons d rest ih =>
      unfold claimNames
      cases hl : claimed.lookup (nameOf d) with
      | some first =>
          obtain ⟨l₁, l₂, rfl, -⟩ := List.lookup_eq_some_iff.mp hl
          simp
      | none =>
          have hd : nameOf d ∉ claimed.map Prod.fst := by
            intro hm
            obtain ⟨entry, hentry, heq⟩ := List.mem_map.mp hm
            have := List.lookup_eq_none_iff.mp hl entry hentry
            simp [heq] at this
          simp only [ih, List.map_cons, List.mem_cons, List.nodup_cons, List.mem_map,
            forall_eq_or_imp]
          constructor
          · rintro ⟨hnodup, hfresh⟩
            refine ⟨⟨?_, hnodup⟩, ?_, ?_⟩
            · rintro ⟨x, hx, heq⟩
              exact hfresh x hx (Or.inl heq)
            · simpa using hd
            · intro x hx hm
              exact hfresh x hx (Or.inr hm)
          · rintro ⟨⟨hfirst, hnodup⟩, -, hfresh⟩
            refine ⟨hnodup, ?_⟩
            rintro x hx (heq | hm)
            · exact hfirst ⟨x, hx, heq⟩
            · exact hfresh x hx hm

end SdkHeaders
