import Mathlib.Data.Finset.Card
import Mathlib.Logic.Relation
import SdkHeaders.Model.Validation

/-!
# Chains of bases

Validation follows the bases of a class until a name has no base or comes up a second time.
Here the search is described without its bound on the number of steps, the bound is shown to
be large enough, and its outcome is compared with the relation that a name has to its base.

Main results:

- Relation `BaseWalk` is the search without a bound, and theorem `repeatedChain_walk` says
  that the bounded search has the outcome of the unbounded one.
- Theorem `BaseWalk.eq_none_iff`: the search meets no name twice exactly if following bases
  ends.
- Theorem `ends_of_acyclic`: following bases ends if no name is below itself.
-/

namespace SdkHeaders.ModelFile

open Relation

variable {base : String → Option String}

/-! ## The relation of a name to its base -/

/-- The second name is the base of the first. -/
def Leads (base : String → Option String) (a b : String) : Prop :=
  base a = some b

/-- Following bases from a name leads to a name without base. -/
def Ends (base : String → Option String) (name : String) : Prop :=
  ∃ root, ReflTransGen (Leads base) name root ∧ base root = none

/-- If following bases ends from the base of a name, it ends from the name. -/
theorem Ends.head {a b : String} (hab : Leads base a b) (h : Ends base b) : Ends base a := by
  obtain ⟨root, hpath, hroot⟩ := h
  exact ⟨root, ReflTransGen.head hab hpath, hroot⟩

/-- If following bases ends from a name, it ends from its base, as there is at most one. -/
theorem Ends.tail {a b : String} (h : Ends base a) (hab : Leads base a b) : Ends base b := by
  obtain ⟨root, hpath, hroot⟩ := h
  rcases ReflTransGen.cases_head hpath with rfl | ⟨next, hnext, hrest⟩
  · rw [Leads, hroot] at hab
    cases hab
  · have hb : next = b := Option.some.inj (hnext.symm.trans hab)
    subst hb
    exact ⟨root, hrest, hroot⟩

/-- If following bases ends from a name, it ends from every name on the way. -/
theorem Ends.of_reflTransGen {a b : String} (h : Ends base a)
    (hab : ReflTransGen (Leads base) a b) : Ends base b := by
  induction hab with
  | refl => exact h
  | tail _ hstep ih => exact ih.tail hstep

/-- A name from which following bases ends is not met again on the way. -/
theorem Ends.not_transGen {a : String} (h : Ends base a) : ¬ TransGen (Leads base) a a := by
  obtain ⟨root, hpath, hroot⟩ := h
  induction hpath using ReflTransGen.head_induction_on with
  | refl =>
      intro hcycle
      obtain ⟨next, hnext, -⟩ := TransGen.head'_iff.mp hcycle
      rw [Leads, hroot] at hnext
      cases hnext
  | head hstep _ ih =>
      -- a cycle through a name also passes through its base
      intro hcycle
      obtain ⟨next, hnext, hback⟩ := TransGen.head'_iff.mp hcycle
      have heq : next = _ := Option.some.inj (hnext.symm.trans hstep)
      subst heq
      exact ih (TransGen.tail' hback hstep)

/-! ## The search without a bound -/

/-- Follow bases from a name after the names in the chain.  The outcome is the chain up to
the first repeated name, or nothing if a name has no base. -/
inductive BaseWalk (base : String → Option String) :
    (chain : List String) → (name : String) → (outcome : Option (List String)) → Prop
  /-- The name is in the chain. -/
  | repeated {chain name} (h : name ∈ chain) :
      BaseWalk base chain name (some (chain ++ [name]))
  /-- The name is new and has no base. -/
  | ended {chain name} (h : name ∉ chain) (hbase : base name = none) :
      BaseWalk base chain name none
  /-- The name is new, and the search goes on from its base. -/
  | onward {chain name next outcome} (h : name ∉ chain) (hbase : base name = some next)
      (hrest : BaseWalk base (chain ++ [name]) next outcome) :
      BaseWalk base chain name outcome

/-- A search without repetition has found that following bases ends. -/
theorem BaseWalk.ends {chain : List String} {name : String}
    {outcome : Option (List String)} (h : BaseWalk base chain name outcome)
    (hnone : outcome = none) : Ends base name := by
  induction h with
  | repeated _ => cases hnone
  | ended _ hbase => exact ⟨_, ReflTransGen.refl, hbase⟩
  | onward _ hbase _ ih => exact (ih hnone).head hbase

/-- A search that meets a name twice has found a cycle, provided that every name of the
chain leads to the name at which the search stands. -/
theorem BaseWalk.exists_cycle {chain : List String} {name : String}
    {outcome : Option (List String)} (h : BaseWalk base chain name outcome)
    (hchain : ∀ n ∈ chain, TransGen (Leads base) n name) (hsome : outcome ≠ none) :
    ∃ n, ReflTransGen (Leads base) name n ∧ TransGen (Leads base) n n := by
  induction h with
  | repeated hmem => exact ⟨_, ReflTransGen.refl, hchain _ hmem⟩
  | ended _ _ => exact absurd rfl hsome
  | @onward chain name next _ _ hbase _ ih =>
      have hchain' : ∀ n ∈ chain ++ [name], TransGen (Leads base) n next := by
        intro n hn
        rcases List.mem_append.mp hn with hn | hn
        · exact (hchain n hn).tail hbase
        · rw [List.mem_singleton.mp hn]
          exact TransGen.single hbase
      obtain ⟨n, hpath, hcycle⟩ := ih hchain' hsome
      exact ⟨n, ReflTransGen.head hbase hpath, hcycle⟩

/-- A search meets no name twice exactly if following bases ends. -/
theorem BaseWalk.eq_none_iff {chain : List String} {name : String}
    {outcome : Option (List String)} (h : BaseWalk base chain name outcome)
    (hchain : ∀ n ∈ chain, TransGen (Leads base) n name) :
    outcome = none ↔ Ends base name := by
  constructor
  · exact h.ends
  · intro hends
    by_contra hsome
    obtain ⟨n, hpath, hcycle⟩ := h.exists_cycle hchain hsome
    exact (hends.of_reflTransGen hpath).not_transGen hcycle

/-- The chain of a single name leads to the base of the name. -/
theorem transGen_of_mem_singleton {a b : String} (h : Leads base a b) :
    ∀ n ∈ [a], TransGen (Leads base) n b := by
  intro n hn
  rw [List.mem_singleton.mp hn]
  exact TransGen.single h

/-! ## The bound on the number of steps -/

/-- The declared names that are not in the chain. -/
def unvisited (declared chain : List String) : Finset String :=
  declared.toFinset \ chain.toFinset

/-- A step to a new declared name leaves fewer names to visit. -/
theorem card_unvisited_lt {declared chain : List String} {name : String}
    (hdeclared : name ∈ declared) (hnew : name ∉ chain) :
    (unvisited declared (chain ++ [name])).card < (unvisited declared chain).card := by
  have hmem : name ∈ unvisited declared chain := by
    simp [unvisited, hdeclared, hnew]
  have heq : unvisited declared (chain ++ [name]) = (unvisited declared chain).erase name := by
    ext x
    simp only [unvisited, Finset.mem_sdiff, List.mem_toFinset, List.mem_append,
      List.mem_singleton, Finset.mem_erase]
    tauto
  rw [heq]
  exact Finset.card_erase_lt_of_mem hmem

/-- No more names are left to visit than are declared. -/
theorem card_unvisited_le (declared chain : List String) :
    (unvisited declared chain).card ≤ declared.length :=
  (Finset.card_le_card Finset.sdiff_subset).trans declared.toFinset_card_le

/-- The bounded search has the outcome of the unbounded one, if only declared names have a
base and more steps are allowed than declared names are left. -/
theorem repeatedChain_walk {declared : List String}
    (hdeclared : ∀ a b, Leads base a b → a ∈ declared) {steps : Nat} {chain : List String}
    {name : String} (hsteps : (unvisited declared chain).card < steps) :
    BaseWalk base chain name (repeatedChain base steps chain name) := by
  induction steps generalizing chain name with
  | zero => exact absurd hsteps (Nat.not_lt_zero _)
  | succ steps ih =>
      unfold repeatedChain
      by_cases hmem : name ∈ chain
      · rw [if_pos hmem]
        exact .repeated hmem
      · rw [if_neg hmem]
        cases hbase : base name with
        | none => exact .ended hmem hbase
        | some next =>
            have hlt := card_unvisited_lt (hdeclared name next hbase) hmem
            exact .onward hmem hbase (ih (by omega))

/-- If no name is below itself, following bases ends, as only the declared names have a
base. -/
theorem ends_of_acyclic {declared : List String}
    (hdeclared : ∀ a b, Leads base a b → a ∈ declared)
    (hacyclic : ∀ n, ¬ TransGen (Leads base) n n) (name : String) : Ends base name := by
  have hsteps : (unvisited declared []).card < declared.length + 1 :=
    Nat.lt_succ_of_le (card_unvisited_le declared [])
  have hwalk : BaseWalk base [] name (repeatedChain base (declared.length + 1) [] name) :=
    repeatedChain_walk hdeclared hsteps
  by_contra hends
  have hsome := mt (hwalk.eq_none_iff (by simp)).mp hends
  obtain ⟨n, -, hcycle⟩ := hwalk.exists_cycle (by simp) hsome
  exact hacyclic n hcycle

end SdkHeaders.ModelFile
