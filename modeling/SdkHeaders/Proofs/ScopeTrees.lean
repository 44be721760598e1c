import SdkHeaders.Proofs.LayoutLines

/-!
# Trees of scopes

The tree of scopes that a sequence of steps writes.  While steps are taken, the scopes that are
still open are at the edge of the tree; leaving the code closes them from the inside out.

Main results:

- Structure `Outline` is a tree of scopes with open scopes at its edge, and theorem
  `Outline.written_step` says that a step on a text is the same step on its outline.
- Definition `Layout.ofSteps` is the tree that a sequence of steps writes, and theorem
  `Scopes.outcome_eq_write` says that the steps have the effect of writing it.
- Theorem `Scopes.steps_write_tree`: the level is always the number of open scopes, and in the end
  the text consists of the lines of the tree.
-/

namespace SdkHeaders

/-! ## Outlines -/

/-- A scope that is still open. -/
structure OpenScope where
  /-- The pieces of code in front of it, in the scope around it. -/
  before : List Layout
  /-- The line that will close it. -/
  close : String

/-- A tree of scopes with open scopes at its edge. -/
structure Outline where
  /-- The open scopes, innermost first. -/
  scopes : List OpenScope
  /-- The pieces of code in the innermost open scope. -/
  body : List Layout

namespace Outline

/-- Add a piece of code to the innermost open scope. -/
def add (o : Outline) (piece : Layout) : Outline :=
  { o with body := o.body ++ [piece] }

/-- Close the innermost scope, if one is open. -/
def close (o : Outline) : Outline :=
  match o.scopes with
  | [] => o
  | scope :: outer => ⟨outer, scope.before ++ [.scope scope.close o.body]⟩

/-- Take a step; an outline has no levels but those of its scopes. -/
def step (o : Outline) : BuildStep → Outline
  | .line s => o.add (.line s)
  | .continuation s => o.add (.continuation s)
  | .label s => o.add (.label s)
  | .blank => o.add .blank
  | .text s => o.add (.text s)
  | .openScope last => ⟨⟨o.body, last⟩ :: o.scopes, []⟩
  | .closeScope => o.close
  | .deepen => o
  | .raise => o

/-- The tree after closing open scopes around pieces of code. -/
def enclose : List OpenScope → List Layout → List Layout
  | [], body => body
  | scope :: outer, body => enclose outer (scope.before ++ [.scope scope.close body])

end Outline

/-- The tree of scopes that a sequence of steps writes; scopes that are still open at the end
are closed there. -/
def Layout.ofSteps (steps : List BuildStep) : List Layout :=
  let o := steps.foldl Outline.step ⟨[], []⟩
  Outline.enclose o.scopes o.body

/-! ## Texts of outlines -/

namespace Builder

variable (b : Builder)

theorem write_append (before after : List Layout) :
    b.write (before ++ after) = (b.write before).write after := by
  induction before generalizing b with
  | nil => rfl
  | cons first rest ih => exact ih (b.writeOne first)

@[simp] theorem level_write (pieces : List Layout) : (b.write pieces).level = b.level := by
  rw [write_eq]
  rfl

end Builder

namespace Outline

variable (b : Builder)

/-- A text behind which scopes have been opened. -/
def entered : List OpenScope → Builder
  | [] => b
  | scope :: outer => ((entered outer).write scope.before).openBrace

/-- A text behind which an outline has been written. -/
def written (o : Outline) : Scopes :=
  ⟨(entered b o.scopes).write o.body, o.scopes.map OpenScope.close⟩

theorem level_entered (scopes : List OpenScope) :
    (entered b scopes).level = b.level + scopes.length := by
  induction scopes with
  | nil => rfl
  | cons scope outer ih =>
      have hopen : ∀ c : Builder, c.openBrace.level = c.level + 1 := fun _ => rfl
      rw [entered, hopen, Builder.level_write, ih, List.length_cons, Nat.add_assoc]

/-- An outline is written at a level for each open scope. -/
theorem level_written (o : Outline) :
    (o.written b).builder.level = b.level + (o.written b).pending.length := by
  rw [written, Builder.level_write, level_entered, List.length_map]

theorem written_add (o : Outline) (piece : Layout) :
    (o.add piece).written b =
      { o.written b with builder := (o.written b).builder.writeOne piece } := by
  rw [written, add, Builder.write_append]
  rfl

theorem written_close (o : Outline) : o.close.written b = (o.written b).close := by
  obtain ⟨scopes, body⟩ := o
  cases scopes with
  | nil => rfl
  | cons scope outer =>
      rw [written, close, Builder.write_append]
      rfl

/-- A step on a text is the same step on its outline. -/
theorem written_step (o : Outline) {step : BuildStep} (h : step ≠ .deepen ∧ step ≠ .raise) :
    (o.step step).written b = (o.written b).step step := by
  cases step with
  | line s => exact o.written_add b (.line s)
  | continuation s => exact o.written_add b (.continuation s)
  | label s => exact o.written_add b (.label s)
  | blank => exact o.written_add b .blank
  | text s => exact o.written_add b (.text s)
  | deepen => exact absurd rfl h.1
  | raise => exact absurd rfl h.2
  | openScope last => rfl
  | closeScope => exact o.written_close b

end Outline

/-! ## Runs -/

namespace Scopes

/-- The state after a list of steps. -/
def after (s : Scopes) (steps : List BuildStep) : Scopes :=
  steps.foldl step s

/-- The state after a list of steps and after leaving the code, which closes the scopes that are
still open. -/
def outcome (s : Scopes) (steps : List BuildStep) : Scopes :=
  (s.trace steps).getLast?.getD s

/-- The states of code that is left early after each of some lists of steps. -/
def traces (s : Scopes) : List (List BuildStep) → List Scopes
  | [] => []
  | steps :: rest => s.trace steps ++ (s.outcome steps).traces rest

theorem getLast?_run (s : Scopes) (steps : List BuildStep) :
    (s.run steps).getLast?.getD s = s.after steps := by
  induction steps generalizing s with
  | nil => rfl
  | cons first rest ih =>
      rw [run, List.getLast?_cons, Option.getD_some, ih]
      rfl

theorem getLast?_unwind (b : Builder) (pending : List String) :
    (unwind b pending).getLast?.getD ⟨b, pending⟩ = ⟨pending.foldl Builder.closeBrace b, []⟩ := by
  induction pending generalizing b with
  | nil => rfl
  | cons last rest ih =>
      rw [unwind, List.getLast?_cons, Option.getD_some, ih]
      rfl

/-- Leaving the code closes the open scopes one after the other. -/
theorem outcome_eq (s : Scopes) (steps : List BuildStep) :
    s.outcome steps =
      ⟨(s.after steps).pending.foldl Builder.closeBrace (s.after steps).builder, []⟩ := by
  have hunwind := getLast?_unwind (s.after steps).builder (s.after steps).pending
  rw [outcome, trace, getLast?_run, ← hunwind, List.getLast?_append]
  cases (unwind (s.after steps).builder (s.after steps).pending).getLast? with
  | some last => rfl
  | none => rw [Option.none_or, getLast?_run, Option.getD_none]

end Scopes

namespace Outline

variable (b : Builder)

/-- Leaving the code writes the tree that is closed around the innermost scope. -/
theorem foldl_closeBrace_written (o : Outline) :
    (o.written b).pending.foldl Builder.closeBrace (o.written b).builder =
      b.write (enclose o.scopes o.body) := by
  obtain ⟨scopes, body⟩ := o
  induction scopes generalizing body with
  | nil => rfl
  | cons scope outer ih =>
      have hclose := written_close b ⟨scope :: outer, body⟩
      rw [enclose, ← ih]
      rw [close] at hclose
      rw [hclose]
      rfl

theorem exists_written_of_mem_unwind {o : Outline} {s : Scopes}
    (h : s ∈ Scopes.unwind (o.written b).builder (o.written b).pending) :
    ∃ o' : Outline, s = o'.written b := by
  obtain ⟨scopes, body⟩ := o
  induction scopes generalizing body with
  | nil => cases h
  | cons scope outer ih =>
      have hclose := written_close b ⟨scope :: outer, body⟩
      rw [close] at hclose
      rcases List.mem_cons.mp h with rfl | h
      · exact ⟨_, hclose.symm⟩
      · refine ih (scope.before ++ [.scope scope.close body]) ?_
        rw [hclose]
        exact h

variable {steps : List BuildStep} (h : ∀ step ∈ steps, step ≠ .deepen ∧ step ≠ .raise)

include h

/-- Steps on a text are the same steps on its outline. -/
theorem after_written (o : Outline) :
    (o.written b).after steps = (steps.foldl Outline.step o).written b := by
  induction steps generalizing o with
  | nil => rfl
  | cons first rest ih =>
      rw [List.forall_mem_cons] at h
      have hfirst := o.written_step b h.1
      rw [List.foldl_cons, ← ih h.2, hfirst]
      rfl

theorem exists_written_of_mem_run {o : Outline} {s : Scopes}
    (hs : s ∈ (o.written b).run steps) : ∃ o' : Outline, s = o'.written b := by
  induction steps generalizing o with
  | nil => cases hs
  | cons first rest ih =>
      rw [List.forall_mem_cons] at h
      rw [Scopes.run, ← o.written_step b h.1] at hs
      rcases List.mem_cons.mp hs with rfl | hs
      · exact ⟨_, rfl⟩
      · exact ih h.2 hs

/-- Each state on the way is a text behind which an outline has been written. -/
theorem exists_written_of_mem_trace {o : Outline} {s : Scopes}
    (hs : s ∈ (o.written b).trace steps) : ∃ o' : Outline, s = o'.written b := by
  rw [Scopes.trace, Scopes.getLast?_run, after_written b h, List.mem_append] at hs
  rcases hs with hs | hs
  · exact exists_written_of_mem_run b h hs
  · exact exists_written_of_mem_unwind b hs

end Outline

namespace Scopes

/-- Steps have the effect of writing the tree of their scopes. -/
theorem outcome_eq_write (b : Builder) {steps : List BuildStep}
    (h : ∀ step ∈ steps, step ≠ .deepen ∧ step ≠ .raise) :
    (⟨b, []⟩ : Scopes).outcome steps = ⟨b.write (Layout.ofSteps steps), []⟩ := by
  have hafter := Outline.after_written b h ⟨[], []⟩
  have hleave := Outline.foldl_closeBrace_written b (steps.foldl Outline.step ⟨[], []⟩)
  rw [outcome_eq, Layout.ofSteps, ← hleave, ← hafter]
  rfl

section Parts

variable {parts : List (List BuildStep)}
  (h : ∀ steps ∈ parts, ∀ step ∈ steps, step ≠ .deepen ∧ step ≠ .raise)

include h

theorem foldl_outcome_eq_write (b : Builder) :
    parts.foldl outcome ⟨b, []⟩ = ⟨b.write (parts.flatMap Layout.ofSteps), []⟩ := by
  induction parts generalizing b with
  | nil => rfl
  | cons steps rest ih =>
      rw [List.forall_mem_cons] at h
      rw [List.foldl_cons, outcome_eq_write b h.1, ih h.2, List.flatMap_cons,
        Builder.write_append]

/-- The level is always that of the start and one more for each open scope. -/
theorem level_of_mem_traces {b : Builder} {s : Scopes}
    (hs : s ∈ (⟨b, []⟩ : Scopes).traces parts) :
    s.builder.level = b.level + s.pending.length := by
  induction parts generalizing b with
  | nil => cases hs
  | cons steps rest ih =>
      rw [List.forall_mem_cons] at h
      rw [traces, outcome_eq_write b h.1] at hs
      rcases List.mem_append.mp hs with hs | hs
      · obtain ⟨o, rfl⟩ := Outline.exists_written_of_mem_trace (o := ⟨[], []⟩) b h.1 hs
        exact o.level_written b
      · rw [ih h.2 hs, Builder.level_write]

/-- Steps without changes of the level, which may be left early again and again, keep the level at
the number of open scopes, and close all scopes in the end.  They write the lines of the tree of
their scopes, in which a scope stands between an opening brace and its closing line at the level
around it. -/
theorem steps_write_tree (indent : String) :
    (∀ s ∈ (new indent).traces parts, s.builder.level = s.pending.length) ∧
      parts.foldl outcome (new indent) =
        ⟨⟨indent, 0, Text.unlines (Layout.linesOf indent 0 (parts.flatMap Layout.ofSteps))⟩,
          []⟩ := by
  constructor
  · intro s hs
    rw [level_of_mem_traces h hs]
    exact Nat.zero_add _
  · rw [new, foldl_outcome_eq_write h, Builder.write_eq, Builder.appendLines, Builder.new,
      String.empty_append]

end Parts

/-- A structure is left early, and a block with an inner one is closed once too often. -/
def structParts : List (List BuildStep) :=
  [[.line "struct A", .openScope "\x7d;", .label "public:", .text "int a;\n\nint b;"],
    [.openScope "\x7d", .openScope "\x7d);", .line "f();", .closeScope, .closeScope, .closeScope,
      .blank]]

theorem structParts_write_tree :
    (∀ steps ∈ structParts, ∀ step ∈ steps, step ≠ .deepen ∧ step ≠ .raise) ∧
      (∀ s ∈ (new "\t").traces structParts, s.builder.level = s.pending.length) ∧
      structParts.foldl outcome (new "\t") =
        ⟨⟨"\t", 0, "struct A\n\x7b\npublic:\n\tint a;\n\n\tint b;\n\x7d;\n" ++
          "\x7b\n\t\x7b\n\t\tf();\n\t\x7d);\n\x7d\n\n"⟩, []⟩ := by
  have hsteps : ∀ steps ∈ structParts, ∀ step ∈ steps, step ≠ .deepen ∧ step ≠ .raise := by decide
  obtain ⟨hlevel, htext⟩ := steps_write_tree hsteps "\t"
  exact ⟨hsteps, hlevel, htext.trans rfl⟩

end Scopes

end SdkHeaders
