import Mathlib.Data.List.Chain
import SdkHeaders.Document.Load
import SdkHeaders.Proofs.Violations

/-!
# Reported base cycles

The chain of bases that is reported for a class: how it is made up, and whether the class is part
of the cycle that it tells of or only leads into it.

Main results:

- Theorem `ModelFile.BaseWalk.repeats`: a search along bases that meets a name twice yields a chain
  of bases without other repetitions.
- Theorem `ModelFile.baseCycle_reported`: the reported class is the first one from which bases run
  into a cycle, and it is part of the cycle exactly if the reported chain ends with it.
- Theorem `vineFile_reports_tendril`: there are files for which it is not.
-/

namespace SdkHeaders

open Relation

/-! ## Chains of a relation -/

section Chains

variable {α : Type} {R : α → α → Prop}

/-- The head of a chain leads to every further element. -/
theorem transGen_of_isChain_cons {a b : α} {rest : List α} (h : List.IsChain R (a :: rest))
    (hb : b ∈ rest) : TransGen R a b := by
  have hchain : List.IsChain (TransGen R) (a :: rest) := h.imp fun _ _ => TransGen.single
  exact List.rel_of_pairwise_cons (List.isChain_iff_pairwise.mp hchain) hb

/-- Every element of a chain but the last leads to one behind the head. -/
theorem exists_rel_of_mem_isChain {before : List α} {last a : α}
    (h : List.IsChain R (before ++ [last])) (ha : a ∈ before) :
    ∃ b ∈ (before ++ [last]).tail, R a b := by
  obtain ⟨front, back, rfl⟩ := List.append_of_mem ha
  obtain ⟨b, more, hmore⟩ := List.exists_cons_of_ne_nil (l := back ++ [last]) (by simp)
  rw [List.append_assoc, List.cons_append, hmore] at h ⊢
  refine ⟨b, ?_, (List.isChain_append.mp h).2.1.rel⟩
  cases front <;> simp

/-- If a chain ends with an element that it holds before, and every element leads to only one, then
everything that the head leads to stands behind the head. -/
theorem mem_tail_of_transGen (hunique : Relator.RightUnique R) {before : List α} {first last : α}
    (h : List.IsChain R (before ++ [last])) (hfirst : before.head? = some first)
    (hlast : last ∈ before) {b : α} (hb : TransGen R first b) : b ∈ (before ++ [last]).tail := by
  have hstep : ∀ {a c}, a ∈ before ++ [last] → R a c → c ∈ (before ++ [last]).tail := by
    intro a c ha hac
    have hbefore : a ∈ before := by
      rcases List.mem_append.mp ha with ha | ha
      · exact ha
      · rwa [List.mem_singleton.mp ha]
    obtain ⟨d, hd, had⟩ := exists_rel_of_mem_isChain h hbefore
    rwa [hunique hac had]
  induction hb with
  | single hstart =>
      exact hstep (List.mem_append_left _ (List.mem_of_mem_head? hfirst)) hstart
  | tail _ hnext ih => exact hstep (List.mem_of_mem_tail ih) hnext

end Chains

/-! ## The chain of a search -/

namespace ModelFile

variable {base : String → Option String}

/-- A search that meets a name twice yields a chain of bases whose last name is the only one that
comes up twice. -/
theorem BaseWalk.repeats {chain result : List String} {name : String}
    {outcome : Option (List String)} (h : BaseWalk base chain name outcome)
    (hresult : outcome = some result) (hnodup : chain.Nodup)
    (hleads : List.IsChain (Leads base) (chain ++ [name])) :
    ∃ before last, result = before ++ [last] ∧ chain <+: before ∧ before.Nodup ∧ last ∈ before ∧
      List.IsChain (Leads base) result := by
  induction h with
  | @repeated chain name hmem =>
      cases hresult
      exact ⟨chain, name, rfl, List.prefix_rfl, hnodup, hmem, hleads⟩
  | ended => cases hresult
  | @onward chain name next _ hnew hbase _ ih =>
      have hnext : List.IsChain (Leads base) (chain ++ [name] ++ [next]) := by
        refine List.isChain_append.mpr ⟨hleads, List.isChain_singleton next, ?_⟩
        intro a ha b hb
        rw [List.getLast?_concat, Option.mem_some_iff] at ha
        rw [List.head?_cons, Option.mem_some_iff] at hb
        subst ha hb
        exact hbase
      obtain ⟨before, last, heq, hprefix, hrest⟩ :=
        ih hresult (nodup_concat hnodup hnew) hnext
      exact ⟨before, last, heq, (List.prefix_append chain [name]).trans hprefix, hrest⟩

/-! ## Reported chains -/

/-- Following bases from a name runs into a cycle. -/
def RunsIntoCycle (file : ModelFile) (name : String) : Prop :=
  ∃ entry, ReflTransGen file.Derives name entry ∧ TransGen file.Derives entry entry

section Distinct

variable {file : ModelFile} (hnodup : file.typeNames.Nodup)

include hnodup

/-- If the types have distinct names, a name leads to a base exactly if its class derives from
it. -/
theorem leads_baseOf_iff {a b : String} :
    Leads (baseOf file.classes) a b ↔ file.Derives a b :=
  baseOf_eq_some_iff (nodup_append_iff_fresh.mp hnodup).2.1

/-- A class whose base passes does not run into a cycle. -/
theorem not_runsIntoCycle_of_checkBase {c : ClassDecl} (hc : c ∈ file.classes)
    (h : checkBase file.classes c = .ok ()) : ¬ file.RunsIntoCycle c.name := by
  have heq : Leads (baseOf file.classes) = file.Derives := by
    funext a b
    exact propext (leads_baseOf_iff hnodup)
  have hends : ∀ {b}, file.Derives c.name b → Ends (baseOf file.classes) b := by
    rintro b ⟨d, hd, hname, hbase⟩
    obtain rfl : d = c :=
      List.inj_on_of_nodup_map (nodup_append_iff_fresh.mp hnodup).2.1 hd hc hname
    exact (baseWalk_of_class file.classes d b).ends
      ((checkBase_eq_ok_iff file.classes d).mp h b hbase).2
  rintro ⟨entry, hpath, hcycle⟩
  -- a class on the cycle has a base as well, so that the way from the class is not empty
  obtain ⟨b, hb, hback⟩ : ∃ b, file.Derives c.name b ∧ ReflTransGen file.Derives b entry := by
    rcases ReflTransGen.cases_head hpath with rfl | hstep
    · exact TransGen.head'_iff.mp hcycle
    · exact hstep
  rw [← heq] at hback hcycle
  exact ((hends hb).of_reflTransGen hback).not_transGen hcycle

end Distinct

/-- The class of a reported base cycle is the first one of the file from which bases run into a
cycle.  The reported chain starts with it, consists of classes with their declared bases, and ends
with the only name that comes up twice.  The class is part of the cycle exactly if the chain ends
with it. -/
theorem baseCycle_reported {file : ModelFile} {name : String} {chain : List String}
    (h : file.validate = .error (.baseCycle name chain)) :
    chain.head? = some name ∧ List.IsChain file.Derives chain ∧
      (∃ lead entry cycle, chain = lead ++ entry :: (cycle ++ [entry]) ∧
        (lead ++ entry :: cycle).Nodup ∧ TransGen file.Derives entry entry) ∧
      (TransGen file.Derives name name ↔ chain.getLast? = some name) ∧
      ∃ before c after, file.classes = before ++ c :: after ∧ c.name = name ∧
        file.RunsIntoCycle name ∧ ∀ d ∈ before, ¬ file.RunsIntoCycle d.name := by
  cases breaks_of_validate h with
  | ofEnum _ hbreaks => cases hbreaks
  | ofClass _ hbreaks => cases hbreaks
  | @baseCycle front after c b _ hnodup hsplit hbefore hbase hwalk =>
      have hc : c ∈ file.classes := by
        rw [hsplit]
        exact List.mem_append_right front List.mem_cons_self
      have hleads : ∀ {a b}, Leads (baseOf file.classes) a b ↔ file.Derives a b :=
        leads_baseOf_iff hnodup
      have hstart : List.IsChain (Leads (baseOf file.classes)) ([c.name] ++ [b]) :=
        List.isChain_pair.mpr (hleads.mpr ⟨c, hc, rfl, hbase⟩)
      obtain ⟨before, last, rfl, ⟨more, rfl⟩, hdistinct, hlast, hwalked⟩ :=
        hwalk.repeats rfl (List.nodup_singleton c.name) hstart
      have hchain : List.IsChain file.Derives ([c.name] ++ more ++ [last]) :=
        hwalked.imp fun _ _ => hleads.mp
      have hunique : Relator.RightUnique file.Derives := fun _ _ _ hy hz =>
        Option.some.inj ((hleads.mpr hy).symm.trans (hleads.mpr hz))
      obtain ⟨lead, cycle, hlead⟩ := List.append_of_mem hlast
      have hloop : List.IsChain file.Derives (lead ++ last :: (cycle ++ [last])) := by
        rw [hlead, List.append_assoc] at hchain
        exact hchain
      have hcycle : TransGen file.Derives last last :=
        transGen_of_isChain_cons (List.isChain_append.mp hloop).2.1
          (List.mem_append_right cycle (List.mem_singleton_self last))
      have hreach : TransGen file.Derives c.name last :=
        transGen_of_isChain_cons hchain (List.mem_append_right more (List.mem_singleton_self last))
      refine ⟨rfl, hchain, ⟨lead, last, cycle, ?_, hlead ▸ hdistinct, hcycle⟩, ?_, ?_⟩
      · rw [hlead, List.append_assoc]
        rfl
      · rw [List.getLast?_concat, Option.some_inj]
        constructor
        · intro hback
          -- behind its head the chain holds the class only as its last name
          have hmem := mem_tail_of_transGen hunique hchain rfl hlast hback
          rcases List.mem_append.mp hmem with hmore | hend
          · exact absurd hmore (List.nodup_cons.mp hdistinct).1
          · exact (List.mem_singleton.mp hend).symm
        · rintro rfl
          exact hcycle
      · refine ⟨front, c, after, hsplit, rfl, ⟨last, hreach.to_reflTransGen, hcycle⟩, ?_⟩
        intro d hd
        refine not_runsIntoCycle_of_checkBase hnodup ?_ (hbefore d hd)
        rw [hsplit]
        exact List.mem_append_left _ hd

end ModelFile

/-! ## A class outside the cycle -/

/-- A document about tendrils, which are vines, and vines, which are vines themselves. -/
def vineFile : SourceFile where
  name := "model.json"
  text := "[\"demo\", [], [[\"tendril\", \"entity\", \"vine\"]," ++
    " [\"vine\", \"entity\", \"vine\"]]]"

/-- What the document about vines declares. -/
def vineDeclared : ModelFile where
  space := "demo"
  enums := []
  classes := [⟨"tendril", .entity, some "vine", []⟩, ⟨"vine", .entity, some "vine", []⟩]

theorem validate_vineDeclared :
    vineDeclared.validate = .error (.baseCycle "tendril" ["tendril", "vine", "vine"]) := by
  decide +kernel

/-- The chain that is reported for tendrils ends with another class. -/
theorem vineDeclared_reported :
    vineDeclared.validate = .error (.baseCycle "tendril" ["tendril", "vine", "vine"]) ∧
      (∃ lead entry cycle, ["tendril", "vine", "vine"] = lead ++ entry :: (cycle ++ [entry]) ∧
        (lead ++ entry :: cycle).Nodup ∧ TransGen vineDeclared.Derives entry entry) ∧
      (TransGen vineDeclared.Derives "tendril" "tendril" ↔
        ["tendril", "vine", "vine"].getLast? = some "tendril") ∧
      vineDeclared.RunsIntoCycle "tendril" := by
  obtain ⟨-, -, hsplit, hiff, -, -, -, -, -, hcycle, -⟩ :=
    ModelFile.baseCycle_reported validate_vineDeclared
  exact ⟨validate_vineDeclared, hsplit, hiff, hcycle⟩

/-- Tendrils are reported to be part of a cycle, and are not: they are the base of no class. -/
theorem vineFile_reports_tendril :
    vineFile.decode .json = some vineDeclared ∧
      (∃ fault, vineFile.load .json = .error fault ∧
        fault = vineFile.locate (.baseCycle "tendril" ["tendril", "vine", "vine"]) ∧
          fault.message = "class 'tendril' is part of a base class cycle" ∧
            fault.advice? = some "cycle: tendril -> vine -> vine") ∧
      ¬ TransGen vineDeclared.Derives "tendril" "tendril" := by
  refine ⟨by decide +kernel, ⟨_, by decide +kernel, rfl, by decide +kernel, by decide +kernel⟩, ?_⟩
  intro hcycle
  obtain ⟨_, -, c, hc, -, hbase⟩ := TransGen.tail'_iff.mp hcycle
  have hbases : ∀ c ∈ vineDeclared.classes, c.base ≠ some "tendril" := by decide
  exact hbases c hc hbase

end SdkHeaders
