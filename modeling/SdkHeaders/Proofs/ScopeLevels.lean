import SdkHeaders.Proofs.ScopeTrees

/-!
# Levels of scopes

At which level a scope is closed when the steps inside it have changed the level on their own.
Closing goes up one level from wherever the body ends, so these changes remain, and each step up
that was taken at level zero is lost.

Main results:

- Predicate `BuildStep.Nested` says that steps close the scopes that they open, and theorem
  `Scopes.pending_after` that other scopes stay open.
- Theorem `Scopes.level_after` gives the level after some steps by `BuildStep.shifts`, the levels
  that they go deeper together, and `BuildStep.rebound`, the most that their last ones do.
- Theorem `Scopes.close_restores_iff`: at which level a scope is closed, and when this is the level
  at which it was opened.
-/

namespace SdkHeaders

/-! ## Steps -/

namespace BuildStep

/-- How many scopes are open after a step. -/
def scopesAfter (depth : Nat) : BuildStep → Nat
  | openScope _ => depth + 1
  | closeScope => depth - 1
  | _ => depth

/-- Steps that close no scopes but their own and leave none of these open, where the given number
of them is open before. -/
def Nested : Nat → List BuildStep → Prop
  | depth, [] => depth = 0
  | depth, step :: rest =>
      (step = closeScope → 0 < depth) ∧ Nested (step.scopesAfter depth) rest

instance decidableNested : (depth : Nat) → (steps : List BuildStep) →
    Decidable (Nested depth steps)
  | depth, [] => inferInstanceAs (Decidable (depth = 0))
  | depth, step :: rest =>
      have := decidableNested (step.scopesAfter depth) rest
      inferInstanceAs (Decidable (_ ∧ _))

/-- The levels by which a step goes deeper. -/
def shift : BuildStep → Int
  | deepen => 1
  | openScope _ => 1
  | raise => -1
  | closeScope => -1
  | _ => 0

/-- The levels by which steps go deeper together. -/
def shifts : List BuildStep → Int
  | [] => 0
  | step :: rest => step.shift + shifts rest

/-- The most levels by which the steps go deeper together from some point on. -/
def rebound : List BuildStep → Int
  | [] => 0
  | step :: rest => max (shifts (step :: rest)) (rebound rest)

theorem shifts_le_rebound (steps : List BuildStep) : shifts steps ≤ rebound steps := by
  cases steps with
  | nil => exact Int.le_refl 0
  | cons step rest => exact Int.le_max_left _ _

/-- Scopes that steps open and close do not count for how far the steps go deeper. -/
theorem Nested.shifts_eq {depth : Nat} {steps : List BuildStep} (h : Nested depth steps) :
    shifts steps = steps.count deepen - steps.count raise - depth := by
  induction steps generalizing depth with
  | nil =>
      obtain rfl : depth = 0 := h
      rfl
  | cons step rest ih =>
      obtain ⟨hclose, hrest⟩ := h
      rw [shifts, ih hrest]
      cases step <;> simp [shift, scopesAfter] at hclose ⊢ <;> omega

theorem Nested.concat_closeScope {depth : Nat} {steps : List BuildStep} (h : Nested depth steps) :
    Nested (depth + 1) (steps ++ [closeScope]) := by
  induction steps generalizing depth with
  | nil =>
      obtain rfl : depth = 0 := h
      exact ⟨fun _ => Nat.one_pos, rfl⟩
  | cons step rest ih =>
      obtain ⟨hclose, hrest⟩ := h
      have hdepth : step.scopesAfter (depth + 1) = step.scopesAfter depth + 1 := by
        cases step with
        | closeScope => exact (Nat.sub_add_cancel (hclose rfl)).symm
        | _ => rfl
      refine ⟨fun _ => Nat.succ_pos depth, ?_⟩
      rw [hdepth]
      exact ih hrest

end BuildStep

/-! ## States -/

namespace Scopes

open BuildStep

/-- A step that closes no scope below opened ones changes the opened ones only. -/
theorem exists_pending_step {s : Scopes} {opened below : List String} {step : BuildStep}
    (hs : s.pending = opened ++ below) (h : step = .closeScope → 0 < opened.length) :
    ∃ now, now.length = step.scopesAfter opened.length ∧ (s.step step).pending = now ++ below := by
  cases step with
  | openScope last =>
      refine ⟨last :: opened, rfl, ?_⟩
      rw [Scopes.step, hs, List.cons_append]
  | closeScope =>
      obtain ⟨last, rest, rfl⟩ := List.exists_cons_of_length_pos (h rfl)
      refine ⟨rest, rfl, ?_⟩
      rw [Scopes.step, close, hs, List.cons_append]
  | _ => exact ⟨opened, rfl, hs⟩

/-- Scopes that were open before stay open. -/
theorem pending_after {s : Scopes} {opened below : List String} {steps : List BuildStep}
    (hs : s.pending = opened ++ below) (h : Nested opened.length steps) :
    (s.after steps).pending = below := by
  induction steps generalizing s opened with
  | nil =>
      obtain rfl := List.eq_nil_of_length_eq_zero h
      exact hs
  | cons step rest ih =>
      obtain ⟨now, hlength, hpending⟩ := exists_pending_step hs h.1
      exact ih hpending (hlength ▸ h.2)

/-- A step goes by its levels, but not above level zero. -/
theorem level_step {s : Scopes} {step : BuildStep} (h : step = .closeScope → s.pending ≠ []) :
    ((s.step step).builder.level : Int) = max 0 (s.builder.level + step.shift) := by
  have hstay : (s.builder.level : Int) = max 0 ((s.builder.level : Int) + 0) := by omega
  have hdeeper : ((s.builder.level + 1 : Nat) : Int) = max 0 ((s.builder.level : Int) + 1) := by
    omega
  have hup : ((s.builder.level - 1 : Nat) : Int) = max 0 ((s.builder.level : Int) + -1) := by
    omega
  cases step with
  | text t =>
      have htext : (s.step (.text t)).builder.level = s.builder.level := by
        rw [Scopes.step, Builder.text_eq, Builder.appendLines]
      rw [htext]
      exact hstay
  | deepen => exact hdeeper
  | raise => exact hup
  | openScope last => exact hdeeper
  | closeScope =>
      obtain ⟨last, rest, hpending⟩ := List.exists_cons_of_ne_nil (h rfl)
      rw [Scopes.step, close, hpending]
      exact hup
  | _ => exact hstay

/-- Steps go by their levels together, but since they never start above level zero, they end at
least as deep as they go from any point on. -/
theorem level_after {s : Scopes} {depth : Nat} {steps : List BuildStep} (h : Nested depth steps)
    (hdepth : depth ≤ s.pending.length) :
    ((s.after steps).builder.level : Int) =
      max (s.builder.level + shifts steps) (rebound steps) := by
  induction steps generalizing s depth with
  | nil =>
      have hlevel : (s.builder.level : Int) = max ((s.builder.level : Int) + 0) 0 := by omega
      exact hlevel
  | cons step rest ih =>
      obtain ⟨hclose, hrest⟩ := h
      have hpending : step = .closeScope → 0 < s.pending.length :=
        fun heq => Nat.lt_of_lt_of_le (hclose heq) hdepth
      obtain ⟨now, hnow, hstep⟩ := exists_pending_step (List.append_nil s.pending).symm hpending
      have hlevel := level_step fun heq => List.ne_nil_of_length_pos (hpending heq)
      have hopen : step.scopesAfter depth ≤ (s.step step).pending.length := by
        rw [hstep, List.append_nil, hnow]
        cases step with
        | openScope last => exact Nat.succ_le_succ hdepth
        | closeScope => exact Nat.sub_le_sub_right hdepth 1
        | _ => exact hdepth
      have hafter := ih hrest hopen
      -- If the step stops at level zero, the rest goes deeper by no more than it rebounds.
      have hbound := shifts_le_rebound rest
      rw [after, List.foldl_cons, ← after, hafter, hlevel, rebound, shifts]
      omega

/-- A scope is closed at the level at which it was opened, moved by the changes of the level that
its body makes on its own; but at least as deep as the body and the end of the scope go from any
point on.  So the level is restored if as many changes go deeper as up and that depth does not
exceed it, or if more go up and that depth is just the level; otherwise it is not. -/
theorem close_restores_iff (s : Scopes) (close : String) {body : List BuildStep}
    (h : Nested 0 body) :
    let inside := (s.step (.openScope close)).after body
    let closed := inside.step .closeScope
    let ending := rebound (body ++ [.closeScope])
    closed.pending = s.pending ∧
      closed.builder.buffer = inside.builder.buffer ++
        Builder.indentation inside.builder.indent closed.builder.level ++ close ++ "\n" ∧
      (closed.builder.level : Int) =
        max ((s.builder.level : Int) + body.count .deepen - body.count .raise) ending ∧
      (closed.builder.level = s.builder.level ↔
        (body.count .deepen = body.count .raise ∧ ending ≤ s.builder.level) ∨
          (body.count .deepen < body.count .raise ∧ ending = s.builder.level)) := by
  intro inside closed ending
  have hinside : inside.pending = close :: s.pending := pending_after (List.nil_append _).symm h
  have hclosed : closed = ⟨inside.builder.closeBrace close, s.pending⟩ := by
    rw [show closed = inside.close from rfl, Scopes.close, hinside]
  have hrun : (s.step (.openScope close)).after (body ++ [.closeScope]) = closed := by
    rw [after, List.foldl_append]
    rfl
  have hlevel := level_after (s := s.step (.openScope close)) h.concat_closeScope
    (Nat.le_add_left 1 s.pending.length)
  rw [hrun, h.concat_closeScope.shifts_eq] at hlevel
  have hopened : (s.step (.openScope close)).builder.level = s.builder.level + 1 := rfl
  have hcounts : (body ++ [closeScope]).count deepen = body.count deepen ∧
      (body ++ [closeScope]).count raise = body.count raise := by
    simp
  rw [hopened, hcounts.1, hcounts.2] at hlevel
  refine ⟨?_, ?_, ?_, ?_⟩
  · rw [hclosed]
  · rw [hclosed]
    rfl
  · rw [hlevel]
    omega
  · omega

/-- A member of a class and a block that stands one level deeper. -/
def classBody : List BuildStep :=
  [.label "public:", .deepen, .openScope "\x7d", .line "f();", .closeScope, .raise, .line "int a;"]

/-- The inside of a namespace. -/
def namespaceBody : Scopes :=
  ⟨⟨"\t", 1, "namespace N\n\x7b\n"⟩, ["\x7d"]⟩

theorem classBody_restores :
    let inside := (namespaceBody.step (.openScope "\x7d;")).after classBody
    let closed := inside.step .closeScope
    Nested 0 classBody ∧ closed.pending = ["\x7d"] ∧ closed.builder.level = 1 ∧
      closed.builder.buffer = inside.builder.buffer ++ "\t\x7d;\n" := by
  have hbody : Nested 0 classBody := by decide
  obtain ⟨hpending, htext, -, hlevel⟩ := close_restores_iff namespaceBody "\x7d;" hbody
  have hrestored := hlevel.mpr (.inl (by decide))
  refine ⟨hbody, hpending, hrestored, ?_⟩
  rw [htext, hrestored, String.append_assoc, String.append_assoc]
  rfl

/-- After a change of the level that is not taken back, a scope is closed one level too deep. -/
theorem deepenedBody_not_restored :
    let body : List BuildStep := [.deepen]
    let closed := (((new "\t").step (.openScope "\x7d")).after body).step .closeScope
    Nested 0 body ∧ closed.builder.level ≠ (new "\t").builder.level ∧
      closed.builder.buffer = "\x7b\n\t\x7d\n" := by
  decide

end Scopes

end SdkHeaders
