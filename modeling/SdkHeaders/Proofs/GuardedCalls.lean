import SdkHeaders.Proofs.DeclarationText
import SdkHeaders.Proofs.SummaryComments

/-!
# Guarded calls

What a generated function does that reads an object, when its lines are read as code: blocks that
are entered under a condition, and answers that end the function.  Which calls succeed and which
keys are present is left open.

Main results:

- Definition `execute` runs the lines of a function and tells which calls it attempts and what it
  answers.
- Structure `StopsAtFailure` says that calls are attempted in order up to the first that fails, and
  that the answer tells whether all attempted calls succeed.
- Theorem `Header.FreeFunction.execute_readObject`: a reader of objects does so with the calls of
  its steps.
-/

namespace SdkHeaders

open Header Text

/-! ## Lines of code -/

/-- What a line of a function says, apart from its indentation. -/
inductive CodeLine where
  /-- Nothing. -/
  | blank
  /-- A block starts. -/
  | opening
  /-- A block ends. -/
  | closing
  /-- The block behind the line is entered if a call fails. -/
  | ifFails (call : String)
  /-- The block behind the line is entered if a key is present. -/
  | ifPresent (key : String)
  /-- The function ends with an answer. -/
  | answer (result : Bool)
  /-- Something else. -/
  | other (s : String)
  deriving DecidableEq, Repr

/-- A line without its indentation. -/
def unindented (line : String) : String :=
  String.ofList (line.toList.dropWhile (· ∈ indentChars))

/-- The lines that say the same wherever they stand. -/
def CodeLine.fixed : List (String × CodeLine) :=
  [("", .blank), ("\x7b", .opening), ("\x7d", .closing), ("return true;", .answer true),
    ("return false;", .answer false)]

/-- What a line without indentation says. -/
def CodeLine.ofText (s : String) : CodeLine :=
  match between "if (!" ")" s, between "if (jsonValue.has_field(U(\"" "\")))" s with
  | some call, _ => .ifFails call
  | none, some key => .ifPresent key
  | none, none => (fixed.lookup s).getD (.other s)

/-- What a line says. -/
def CodeLine.read (line : String) : CodeLine :=
  .ofText (unindented line)

theorem CodeLine.ofText_ifFails (call : String) :
    CodeLine.ofText ("if (!" ++ call ++ ")") = .ifFails call := by
  have hbetween := between_eq_some_iff.mpr (rfl : "if (!" ++ call ++ ")" = "if (!" ++ call ++ ")")
  rw [CodeLine.ofText, hbetween]

theorem CodeLine.ofText_ifPresent (key : String) :
    CodeLine.ofText ("if (jsonValue.has_field(" ++ Literal.platform key ++ "))") =
      .ifPresent key := by
  have hcalls : between "if (!" ")" ("if (jsonValue.has_field(" ++ Literal.platform key ++ "))") =
      none := by
    rw [Option.eq_none_iff_forall_not_mem]
    intro call hcall
    have heq := congrArg (fun s => s.toList.drop 4) (between_eq_some_iff.mp hcall)
    simp [Literal.platform] at heq
  have hkey : between "if (jsonValue.has_field(U(\"" "\")))"
      ("if (jsonValue.has_field(" ++ Literal.platform key ++ "))") = some key := by
    rw [between_eq_some_iff]
    apply String.toList_inj.mp
    simp [Literal.platform]
  rw [CodeLine.ofText, hcalls, hkey]

/-- Indentation is dropped in front of a text that starts otherwise. -/
theorem unindented_append {indent s : String} (hindent : IsIndentation indent)
    (hs : ∀ c ∈ s.toList.head?, c ∉ indentChars) : unindented (indent ++ s) = s := by
  have hrest : s.toList.dropWhile (· ∈ indentChars) = s.toList := by
    cases hcs : s.toList with
    | nil => rfl
    | cons c rest =>
        rw [List.dropWhile_cons_of_neg]
        simpa using hs c (by simp [hcs])
  rw [unindented, String.toList_append, List.dropWhile_append_of_pos fun c hc => by
    simpa using hindent c hc, hrest, String.ofList_toList]

/-! ## Running a function -/

/-- What is left open when a function runs. -/
structure Answers where
  /-- Whether a call succeeds, the calls numbered in the order in which they are attempted. -/
  succeeds : Nat → Bool
  /-- Whether a key is present. -/
  present : String → Bool

/-- What happens to the next line. -/
inductive Mode where
  /-- It is carried out. -/
  | running
  /-- It has to start a block, which is entered or not. -/
  | before (enter : Bool)
  /-- It is passed over, in a block of blocks as deep as the number. -/
  | skipping (depth : Nat)
  /-- It does not matter: the function has ended. -/
  | ended (result : Bool)
  /-- The lines are no code. -/
  | stuck
  deriving DecidableEq, Repr

/-- How far a function has come. -/
structure Progress where
  /-- The calls so far. -/
  attempted : List String
  /-- What happens to the next line. -/
  mode : Mode
  deriving DecidableEq, Repr

/-- No line is carried out yet. -/
def Progress.start : Progress :=
  ⟨[], .running⟩

/-- Carry out a line. -/
def Progress.step (answers : Answers) (p : Progress) (line : CodeLine) : Progress :=
  match p.mode, line with
  | .running, .blank => p
  | .running, .closing => p
  | .running, .ifFails call =>
      ⟨p.attempted ++ [call], .before !(answers.succeeds p.attempted.length)⟩
  | .running, .ifPresent key => { p with mode := .before (answers.present key) }
  | .running, .answer result => { p with mode := .ended result }
  | .before true, .opening => { p with mode := .running }
  | .before false, .opening => { p with mode := .skipping 0 }
  | .skipping depth, .opening => { p with mode := .skipping (depth + 1) }
  | .skipping 0, .closing => { p with mode := .running }
  | .skipping (depth + 1), .closing => { p with mode := .skipping depth }
  | .skipping _, _ => p
  | .ended _, _ => p
  | _, _ => { p with mode := .stuck }

/-- Carry out lines one after the other. -/
def Progress.run (answers : Answers) (p : Progress) (code : List CodeLine) : Progress :=
  code.foldl (Progress.step answers) p

/-- The calls that a function attempts and what it answers, read off its lines: the first one is its
signature, and a function that does not answer has no result. -/
def execute (answers : Answers) : List String → Option (List String × Bool)
  | _ :: "\x7b" :: body =>
      let p := Progress.start.run answers (body.map CodeLine.read)
      match p.mode with
      | .ended result => some (p.attempted, result)
      | _ => none
  | _ => none

namespace Progress

variable {answers : Answers}

theorem run_append (p : Progress) (before after : List CodeLine) :
    p.run answers (before ++ after) = (p.run answers before).run answers after :=
  List.foldl_append

@[simp] theorem run_ended (attempted : List String) (result : Bool) (code : List CodeLine) :
    (⟨attempted, .ended result⟩ : Progress).run answers code = ⟨attempted, .ended result⟩ := by
  induction code with
  | nil => rfl
  | cons line rest ih => exact ih

end Progress

/-! ## Calls up to the first failure -/

/-- Calls are attempted in order up to the first that fails, and the answer is whether all attempted
calls succeed. -/
structure StopsAtFailure (succeeds : Nat → Bool) (calls attempted : List String) (result : Bool) :
    Prop where
  /-- The calls are attempted in order. -/
  ordered : attempted <+: calls
  /-- Nothing is attempted after a failure. -/
  stops : ∀ i, i + 1 < attempted.length → succeeds i = true
  /-- All calls are attempted if none fails. -/
  complete : (∀ i < attempted.length, succeeds i = true) → attempted = calls
  /-- The answer is whether all attempted calls succeed. -/
  result_iff : result = true ↔ ∀ i < attempted.length, succeeds i = true

/-- Attempt a call; if it fails, the function ends. -/
def Progress.attempt (succeeds : Nat → Bool) (p : Progress) (call : String) : Progress :=
  match p.mode with
  | .running =>
      ⟨p.attempted ++ [call], if succeeds p.attempted.length then .running else .ended false⟩
  | _ => p

namespace Progress

/-- The next line is carried out, or the function has ended. -/
def Settled (p : Progress) : Prop :=
  p.mode = .running ∨ ∃ result, p.mode = .ended result

variable {succeeds : Nat → Bool} {p : Progress}

theorem Settled.attempt (hp : p.Settled) (call : String) : (p.attempt succeeds call).Settled := by
  obtain ⟨attempted, mode⟩ := p
  rcases hp with rfl | ⟨result, rfl⟩
  · cases hcall : succeeds attempted.length with
    | true => exact .inl (by simp [Progress.attempt, hcall])
    | false => exact .inr ⟨false, by simp [Progress.attempt, hcall]⟩
  · exact .inr ⟨result, rfl⟩

theorem Settled.foldl_attempt (hp : p.Settled) (calls : List String) :
    (calls.foldl (Progress.attempt succeeds) p).Settled := by
  induction calls generalizing p with
  | nil => exact hp
  | cons call rest ih => exact ih (hp.attempt call)

/-- Empty lines change nothing. -/
theorem Settled.step_blank {answers : Answers} (hp : p.Settled) : p.step answers .blank = p := by
  obtain ⟨attempted, mode⟩ := p
  rcases hp with rfl | ⟨result, rfl⟩ <;> rfl

/-- The end of a block that was entered changes nothing. -/
theorem Settled.step_closing {answers : Answers} (hp : p.Settled) :
    p.step answers .closing = p := by
  obtain ⟨attempted, mode⟩ := p
  rcases hp with rfl | ⟨result, rfl⟩ <;> rfl

/-- Nothing is attempted after the function has ended. -/
theorem foldl_attempt_ended (attempted : List String) (result : Bool) (calls : List String) :
    calls.foldl (attempt succeeds) ⟨attempted, .ended result⟩ = ⟨attempted, .ended result⟩ := by
  induction calls with
  | nil => rfl
  | cons call rest ih => exact ih

end Progress

/-- After calls, either all were attempted and succeeded, or the last attempted one failed and
ended the function. -/
theorem Progress.foldl_attempt_spec (succeeds : Nat → Bool) (calls : List String) :
    ((∀ i < calls.length, succeeds i = true) ∧
        calls.foldl (attempt succeeds) .start = ⟨calls, .running⟩) ∨
      ∃ n < calls.length, (∀ i < n, succeeds i = true) ∧ succeeds n = false ∧
        calls.foldl (attempt succeeds) .start = ⟨calls.take (n + 1), .ended false⟩ := by
  induction calls using List.reverseRecOn with
  | nil => exact .inl ⟨by simp, rfl⟩
  | append_singleton before call ih =>
      rw [List.foldl_concat, List.length_append, List.length_singleton]
      rcases ih with ⟨hall, hrun⟩ | ⟨n, hn, hall, hfail, hrun⟩
      · rw [hrun]
        cases hcall : succeeds before.length with
        | true =>
            refine .inl ⟨fun i hi => ?_, by simp [attempt, hcall]⟩
            rcases Nat.lt_succ_iff_lt_or_eq.mp hi with hlt | rfl
            · exact hall i hlt
            · exact hcall
        | false =>
            refine .inr ⟨before.length, Nat.lt_succ_self _, hall, hcall, ?_⟩
            rw [List.take_of_length_le (by simp)]
            simp [attempt, hcall]
      · refine .inr ⟨n, Nat.lt_succ_of_lt hn, hall, hfail, ?_⟩
        rw [hrun, List.take_append_of_le_length hn]
        rfl

/-- Calls that end a function at the first failure, and an answer after them. -/
theorem Progress.stopsAtFailure (answers : Answers) (calls : List String) :
    ∃ attempted result,
      (calls.foldl (attempt answers.succeeds) .start).step answers (.answer true) =
          ⟨attempted, .ended result⟩ ∧
        StopsAtFailure answers.succeeds calls attempted result := by
  rcases foldl_attempt_spec answers.succeeds calls with
    ⟨hall, hrun⟩ | ⟨n, hn, hall, hfail, hrun⟩
  · refine ⟨calls, true, by rw [hrun]; rfl, ?_⟩
    exact ⟨List.prefix_rfl, fun i hi => hall i (by omega), fun _ => rfl, by simpa using hall⟩
  · have hlength : (calls.take (n + 1)).length = n + 1 := by
      rw [List.length_take]
      omega
    have hsome : ¬ ∀ i < (calls.take (n + 1)).length, answers.succeeds i = true := by
      intro h
      rw [h n (by omega)] at hfail
      cases hfail
    refine ⟨calls.take (n + 1), false, by rw [hrun]; rfl, ?_⟩
    exact ⟨List.take_prefix _ _, fun i hi => hall i (by omega), fun h => absurd h hsome,
      by simpa using hsome⟩

/-! ## Readers of objects -/

namespace Header

/-- The calls of a step, when it is known which keys are present. -/
def ReadStep.calls (present : String → Bool) : ReadStep → List String
  | base type => ["Deserialize(jsonValue, static_cast<" ++ type.text ++ "&>(object))"]
  | required key member element => [fieldCall key member element]
  | optional key member => if present key then [fieldCall key member none] else []

/-- What the lines of a check say. -/
def checkCode (call : String) : List CodeLine :=
  [.ifFails call, .opening, .answer false, .closing]

/-- What the lines of a step say. -/
def ReadStep.code : ReadStep → List CodeLine
  | base type => checkCode ("Deserialize(jsonValue, static_cast<" ++ type.text ++ "&>(object))")
  | required key member element => checkCode (fieldCall key member element)
  | optional key member =>
      .ifPresent key :: .opening :: (checkCode (fieldCall key member none) ++ [.closing])

section Lines

variable {indent : String} (hindent : IsIndentation indent)

include hindent

theorem isIndentation_indentation (level : Nat) :
    IsIndentation (Builder.indentation indent level) := by
  induction level with
  | zero => exact List.forall_mem_nil _
  | succ level ih =>
      intro c hc
      rw [Builder.indentation, String.toList_append, List.mem_append] at hc
      exact hc.elim (hindent c) (ih c)

/-- An indented line says what its text says. -/
theorem read_indented (level : Nat) {s : String} (hs : ∀ c ∈ s.toList.head?, c ∉ indentChars) :
    CodeLine.read (Builder.indentation indent level ++ s) = .ofText s := by
  rw [CodeLine.read, unindented_append (isIndentation_indentation hindent level) hs]

/-- The lines of a block say what its inner lines say, between its braces. -/
theorem map_read_braced (level : Nat) (body : List Layout) :
    (Layout.linesOf indent level [.braced body]).map CodeLine.read =
      .opening :: ((Layout.linesOf indent (level + 1) body).map CodeLine.read ++ [.closing]) := by
  have hopen := read_indented hindent level (s := "\x7b") (by simp [indentChars])
  have hclose := read_indented hindent level (s := "\x7d") (by simp [indentChars])
  simp only [Layout.braced, Layout.linesOf_cons, Layout.linesOf_nil, Layout.linesOfOne,
    List.append_nil, List.map_cons, List.map_append, List.map_nil, hopen, hclose]
  rfl

/-- The lines of a check. -/
theorem map_read_check (level : Nat) (call : String) :
    (Layout.linesOf indent level (ReadStep.check call)).map CodeLine.read =
      checkCode call := by
  have hcall := read_indented hindent level (s := "if (!" ++ call ++ ")") (by simp [indentChars])
  have hreturn := read_indented hindent (level + 1) (s := "return false;") (by simp [indentChars])
  rw [CodeLine.ofText_ifFails] at hcall
  rw [ReadStep.check, Layout.linesOf_cons, List.map_append, map_read_braced hindent]
  simp only [Layout.linesOf_cons, Layout.linesOf_nil, Layout.linesOfOne, List.append_nil,
    List.map_cons, List.map_nil, hcall, hreturn]
  rfl

/-- The lines of a step. -/
theorem map_read_readStep (level : Nat) (step : ReadStep) :
    (Layout.linesOf indent level step.layout).map CodeLine.read = step.code := by
  cases step with
  | base type => exact map_read_check hindent level _
  | required key member element => exact map_read_check hindent level _
  | optional key member =>
      have hkey := read_indented hindent level
        (s := "if (jsonValue.has_field(" ++ Literal.platform key ++ "))") (by simp [indentChars])
      rw [CodeLine.ofText_ifPresent] at hkey
      rw [ReadStep.layout, Layout.linesOf_cons, List.map_append, map_read_braced hindent,
        map_read_check hindent]
      simp only [Layout.linesOfOne, List.map_cons, List.map_nil, hkey]
      rfl

/-- The lines of steps with empty lines behind them. -/
theorem map_read_readSteps (level : Nat) (steps : List ReadStep) :
    (Layout.linesOf indent level (steps.flatMap fun step => step.layout ++ [.blank])).map
        CodeLine.read = steps.flatMap fun step => step.code ++ [.blank] := by
  induction steps with
  | nil => rfl
  | cons step rest ih =>
      rw [List.flatMap_cons, List.flatMap_cons, Layout.linesOf_append, List.map_append, ih,
        Layout.linesOf_append, List.map_append, map_read_readStep hindent]
      rfl

end Lines

section Steps

variable {answers : Answers}

/-- A check attempts its call and ends the function if the call fails. -/
theorem run_check (attempted : List String) (call : String) :
    (⟨attempted, .running⟩ : Progress).run answers (checkCode call) =
      Progress.attempt answers.succeeds ⟨attempted, .running⟩ call := by
  simp only [checkCode, Progress.run, List.foldl_cons, List.foldl_nil, Progress.attempt,
    Progress.step]
  cases answers.succeeds attempted.length <;> rfl

/-- A step attempts its calls. -/
theorem ReadStep.run_code {p : Progress} (hp : p.Settled) (step : ReadStep) :
    p.run answers step.code =
      (step.calls answers.present).foldl (Progress.attempt answers.succeeds) p := by
  obtain ⟨attempted, mode⟩ := p
  rcases hp with rfl | ⟨result, rfl⟩
  case inr => rw [Progress.run_ended, Progress.foldl_attempt_ended]
  cases step with
  | base type => exact run_check attempted _
  | required key member element => exact run_check attempted _
  | optional key member =>
      have hsettled : Progress.Settled ⟨attempted, .running⟩ := .inl rfl
      have hcheck : (⟨attempted, .running⟩ : Progress).run answers
          (checkCode (fieldCall key member none)) = _ := run_check attempted _
      cases hpresent : answers.present key with
      | false =>
          simp only [code, checkCode, calls, hpresent, Progress.run, List.foldl_cons,
            Progress.step, List.cons_append]
          rfl
      | true =>
          have hattempt : (Progress.attempt answers.succeeds ⟨attempted, .running⟩
              (fieldCall key member none)).Settled := hsettled.attempt _
          have hblock : Progress.step answers _ .closing = _ := hattempt.step_closing
          rw [← hcheck] at hblock
          simp only [code, calls, hpresent, if_true, List.foldl_nil, List.foldl_cons, ← hcheck]
          simp only [Progress.run, List.foldl_cons, List.foldl_append, List.foldl_nil,
            Progress.step, hpresent]
          exact hblock

/-- Steps attempt their calls one after the other. -/
theorem run_readSteps (steps : List ReadStep) {p : Progress} (hp : p.Settled) :
    p.run answers (steps.flatMap fun step => step.code ++ [.blank]) =
      (steps.flatMap (ReadStep.calls answers.present)).foldl
        (Progress.attempt answers.succeeds) p := by
  induction steps generalizing p with
  | nil => rfl
  | cons step rest ih =>
      have hstep : ((step.calls answers.present).foldl
          (Progress.attempt answers.succeeds) p).Settled := hp.foldl_attempt _
      rw [List.flatMap_cons, List.flatMap_cons, Progress.run_append, Progress.run_append,
        ReadStep.run_code hp, List.foldl_append, ← ih hstep]
      congr 1
      exact hstep.step_blank

end Steps

namespace FreeFunction

/-- The lines of a function as it is written. -/
def writtenLines (indent : String) (f : FreeFunction) : List String :=
  Layout.linesOf indent 0 f.layout

/-- A function is written as its signature and its body in braces. -/
theorem writtenLines_eq (indent : String) (f : FreeFunction) :
    f.writtenLines indent =
      f.parts.1 :: "\x7b" :: (Layout.linesOf indent 1 f.parts.2 ++ ["\x7d"]) := by
  rw [writtenLines, layout, Layout.linesOf_cons, Layout.linesOf_cons,
    Layout.linesOfOne_line_zero, Layout.linesOfOne_braced_zero]
  exact congrArg (_ :: _ :: ·) (List.append_nil _)

/-- The lines of a reader of objects. -/
theorem writtenLines_readObject (indent name : String) (steps : List ReadStep) :
    (readObject name steps).writtenLines indent =
      readSignature name :: "\x7b" ::
        (Layout.linesOf indent 1 (steps.flatMap fun step => step.layout ++ [.blank]) ++
          [Builder.indentation indent 1 ++ "return true;", "\x7d"]) := by
  have hparts : (readObject name steps).parts = (readSignature name,
      (steps.flatMap fun step => step.layout ++ [.blank]) ++ [.line "return true;"]) := rfl
  rw [writtenLines_eq, hparts, Layout.linesOf_append, List.append_assoc]
  rfl

/-- A reader of objects attempts the calls of its steps in order, ends at the first that fails, and
answers whether all attempted calls succeed. -/
theorem execute_readObject {indent : String} (hindent : IsIndentation indent) (name : String)
    (steps : List ReadStep) (answers : Answers) :
    ∃ attempted result,
      execute answers ((readObject name steps).writtenLines indent) = some (attempted, result) ∧
        StopsAtFailure answers.succeeds (steps.flatMap (ReadStep.calls answers.present))
          attempted result := by
  obtain ⟨attempted, result, hrun, hstops⟩ := Progress.stopsAtFailure answers
    (steps.flatMap (ReadStep.calls answers.present))
  refine ⟨attempted, result, ?_, hstops⟩
  have hreturn := read_indented hindent 1 (s := "return true;") (by simp [indentChars])
  have hcode : Progress.start.run answers
      ((Layout.linesOf indent 1 (steps.flatMap fun step => step.layout ++ [.blank]) ++
        [Builder.indentation indent 1 ++ "return true;", "\x7d"]).map CodeLine.read) =
          ⟨attempted, .ended result⟩ := by
    rw [List.map_append, map_read_readSteps hindent, Progress.run_append,
      run_readSteps steps (.inl rfl), List.map_cons, hreturn, Progress.run, List.foldl_cons]
    exact (congrArg (Progress.run answers · _) hrun).trans (Progress.run_ended _ _ _)
  rw [writtenLines_readObject, execute, hcode]

end FreeFunction

end Header

end SdkHeaders
