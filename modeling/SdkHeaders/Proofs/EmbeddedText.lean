import SdkHeaders.Proofs.ScopeLevels

/-!
# Embedded texts

Steps that are taken on an empty text, the result of which is then placed in a text under
construction line by line, have the effect of taking the steps on that text.

Main results:

- Structure `Text.FillsLine` says that a text is a line with something on it, and predicate
  `BuildStep.Embeddable` that steps write such lines.
- Theorem `Scopes.exists_after_inPlace`: wherever embeddable steps are taken, they append the same
  lines, placed at the level there.
- Theorem `Scopes.after_eq_text`: the steps have the effect of placing their text, and a text that
  is placed at two levels in turn is placed at their sum.
-/

namespace SdkHeaders

open Text

/-! ## Placed lines -/

/-- A text that is not empty and is read back as one line: it has no line feed, and no carriage
return at its end. -/
structure Text.FillsLine (s : String) : Prop where
  line : IsLine s
  ne : s ≠ ""

instance (s : String) : Decidable (FillsLine s) :=
  decidable_of_iff (IsLine s ∧ s ≠ "") ⟨fun h => ⟨h.1, h.2⟩, fun h => ⟨h.line, h.ne⟩⟩

theorem Text.FillsLine.append {s t : String} (ht : FillsLine t) (hs : LineFree s) :
    FillsLine (s ++ t) := by
  have hne : t.toList ≠ [] := fun h => ht.ne (String.toList_inj.mp h)
  refine ⟨⟨lineFree_append.mpr ⟨hs, ht.line.free⟩, ?_⟩, by simp [ht.ne]⟩
  rw [String.toList_append, List.getLast?_append_of_ne_nil _ hne]
  exact ht.line.last

/-! ## Embeddable steps -/

namespace BuildStep

/-- A step that may be taken on a text that is to be embedded, with the given number of scopes open
before: it writes a text that fills a line or an empty line, and a label stands in a scope. -/
def IsEmbeddable (depth : Nat) : BuildStep → Prop
  | line s => FillsLine s
  | continuation s => FillsLine s
  | label s => 0 < depth ∧ FillsLine s
  | blank => True
  | openScope close => FillsLine close
  | closeScope => True
  | text _ => False
  | deepen => False
  | raise => False

instance (depth : Nat) : (step : BuildStep) → Decidable (step.IsEmbeddable depth)
  | line s => inferInstanceAs (Decidable (FillsLine s))
  | continuation s => inferInstanceAs (Decidable (FillsLine s))
  | label s => inferInstanceAs (Decidable (0 < depth ∧ FillsLine s))
  | blank => isTrue trivial
  | openScope close => inferInstanceAs (Decidable (FillsLine close))
  | closeScope => isTrue trivial
  | text _ => isFalse id
  | deepen => isFalse id
  | raise => isFalse id

/-- Steps each of which may be taken on a text that is to be embedded. -/
def Embeddable : Nat → List BuildStep → Prop
  | _, [] => True
  | depth, step :: rest => step.IsEmbeddable depth ∧ Embeddable (step.scopesAfter depth) rest

instance decidableEmbeddable : (depth : Nat) → (steps : List BuildStep) →
    Decidable (Embeddable depth steps)
  | _, [] => isTrue trivial
  | depth, step :: rest =>
      have := decidableEmbeddable (step.scopesAfter depth) rest
      inferInstanceAs (Decidable (_ ∧ _))

end BuildStep

namespace Scopes

open BuildStep

/-- A text with open scopes, behind which lines have been placed and further scopes opened. -/
def inPlace (b : Builder) (below opened ls : List String) : Scopes :=
  ⟨{ b with
      level := b.level + opened.length
      buffer := b.buffer ++ unlines (ls.map (Layout.placed b.indent b.level)) },
    opened ++ below⟩

theorem inPlace_nil (b : Builder) (below : List String) : inPlace b below [] [] = ⟨b, below⟩ := by
  simp [inPlace, unlines]

theorem inPlace_of_text {b : Builder} {ls : List String} (h : ∀ l ∈ ls, IsLine l)
    (below : List String) : inPlace b below [] ls = ⟨b.text (unlines ls), below⟩ := by
  rw [Builder.text_eq, lines_unlines_of_isLine h]
  rfl

theorem inPlace_concat_line (b : Builder) (below opened now ls : List String) {s : String}
    (hs : s ≠ "") (depth : Nat) :
    inPlace b below now (ls ++ [Builder.indentation b.indent depth ++ s]) =
      ⟨{ b with
          level := b.level + now.length
          buffer := (inPlace b below opened ls).builder.buffer ++
            Builder.indentation b.indent (b.level + depth) ++ s ++ "\n" },
        now ++ below⟩ := by
  have hline : Builder.indentation b.indent depth ++ s ≠ "" := by simp [hs]
  simp [inPlace, Layout.placed_of_ne hline, Builder.indentation_add, unlines, unlines_append,
    String.append_assoc]

section Run

variable {indent : String} (hindent : LineFree indent)

include hindent

/-- A step appends one line, placed at the level of the text behind which it is taken. -/
theorem exists_step_inPlace {opened : List String} {step : BuildStep}
    (hstep : step.IsEmbeddable opened.length) (hclose : step = .closeScope → 0 < opened.length)
    (hopened : ∀ last ∈ opened, FillsLine last) :
    ∃ now l, now.length = step.scopesAfter opened.length ∧ (∀ last ∈ now, FillsLine last) ∧
      IsLine l ∧ ∀ (b : Builder) (below ls : List String), b.indent = indent →
        (inPlace b below opened ls).step step = inPlace b below now (ls ++ [l]) := by
  have hfill : ∀ {s : String} (depth : Nat), FillsLine s →
      IsLine (Builder.indentation indent depth ++ s) := fun depth hs =>
    (hs.append (Layout.lineFree_indentation hindent depth)).line
  cases step with
  | line s =>
      refine ⟨opened, _, rfl, hopened, hfill opened.length hstep, ?_⟩
      rintro b below ls rfl
      rw [inPlace_concat_line b below opened opened ls hstep.ne]
      rfl
  | continuation s =>
      have hline := hstep.append hindent
      refine ⟨opened, _, rfl, hopened, hfill opened.length hline, ?_⟩
      rintro b below ls rfl
      rw [inPlace_concat_line b below opened opened ls hline.ne, ← String.append_assoc]
      rfl
  | label s =>
      obtain ⟨hdepth, hs⟩ := hstep
      refine ⟨opened, _, rfl, hopened, hfill (opened.length - 1) hs, ?_⟩
      rintro b below ls rfl
      rw [inPlace_concat_line b below opened opened ls hs.ne, ← Nat.add_sub_assoc hdepth]
      rfl
  | blank =>
      refine ⟨opened, "", rfl, hopened, ⟨by decide, by decide⟩, ?_⟩
      rintro b below ls rfl
      simp [inPlace, Scopes.step, Builder.blank, unlines, unlines_append, String.append_assoc]
  | text s => exact absurd hstep id
  | deepen => exact absurd hstep id
  | raise => exact absurd hstep id
  | openScope close =>
      have hbrace : FillsLine "\x7b" := ⟨⟨by decide, by decide⟩, by decide⟩
      refine ⟨close :: opened, _, rfl, List.forall_mem_cons.mpr ⟨hstep, hopened⟩,
        hfill opened.length hbrace, ?_⟩
      rintro b below ls rfl
      rw [inPlace_concat_line b below opened (close :: opened) ls hbrace.ne]
      rfl
  | closeScope =>
      obtain ⟨last, rest, rfl⟩ := List.exists_cons_of_length_pos (hclose rfl)
      obtain ⟨hlast, hrest⟩ := List.forall_mem_cons.mp hopened
      refine ⟨rest, _, rfl, hrest, hfill rest.length hlast, ?_⟩
      rintro b below ls rfl
      rw [inPlace_concat_line b below (last :: rest) rest ls hlast.ne]
      rfl

/-- Wherever steps are taken, they append the same lines, placed at the level there. -/
theorem exists_after_inPlace {opened ls : List String} {steps : List BuildStep}
    (hnested : Nested opened.length steps) (hsteps : Embeddable opened.length steps)
    (hopened : ∀ last ∈ opened, FillsLine last) (hls : ∀ l ∈ ls, IsLine l) :
    ∃ all, (∀ l ∈ all, IsLine l) ∧ ∀ (b : Builder) (below : List String), b.indent = indent →
      (inPlace b below opened ls).after steps = inPlace b below [] all := by
  induction steps generalizing opened ls with
  | nil =>
      obtain rfl := List.eq_nil_of_length_eq_zero hnested
      exact ⟨ls, hls, fun b below _ => rfl⟩
  | cons step rest ih =>
      obtain ⟨now, l, hnow, hfill, hl, hstep⟩ :=
        exists_step_inPlace hindent hsteps.1 hnested.1 hopened
      have hlines : ∀ k ∈ ls ++ [l], IsLine k :=
        List.forall_mem_append.mpr ⟨hls, List.forall_mem_singleton.mpr hl⟩
      obtain ⟨all, hall, hrest⟩ := ih (hnow ▸ hnested.2) (hnow ▸ hsteps.2) hfill hlines
      refine ⟨all, hall, fun b below hb => ?_⟩
      rw [after, List.foldl_cons, hstep b below ls hb]
      exact hrest b below hb

end Run

/-- Steps that are taken on an empty text, the result of which is then placed in a text, have the
effect of taking them on that text.  A text that is placed at one level and then at another one is
placed at their sum. -/
theorem after_eq_text (b : Builder) (below : List String) {steps : List BuildStep}
    (hindent : LineFree b.indent) (hnested : Nested 0 steps) (hsteps : Embeddable 0 steps) :
    let output := ((new b.indent).after steps).builder.buffer
    (⟨b, below⟩ : Scopes).after steps = ⟨b.text output, below⟩ ∧
      ∀ j k, ({ b with level := k }.text
          ({ Builder.new b.indent with level := j }.text output).buffer).buffer =
        ({ b with level := j + k }.text output).buffer := by
  obtain ⟨ls, hls, hafter⟩ := @exists_after_inPlace _ hindent [] [] _ hnested hsteps
    (List.forall_mem_nil _) (List.forall_mem_nil _)
  have hplaced : ∀ j, ∀ l ∈ ls.map (Layout.placed b.indent j), IsLine l := fun j =>
    List.forall_mem_map.mpr fun l hl => Layout.isLine_placed hindent (hls l hl)
  have houtput : ((new b.indent).after steps).builder.buffer = unlines ls := by
    have halone := hafter (.new b.indent) [] rfl
    rw [inPlace_nil] at halone
    have hzero : ls.map (Layout.placed b.indent 0) = ls :=
      (List.map_congr_left fun l _ => Layout.placed_zero l).trans (List.map_id ls)
    rw [new, halone, inPlace, Builder.new, hzero, String.empty_append]
  rw [houtput]
  refine ⟨?_, fun j k => ?_⟩
  · rw [← inPlace_of_text hls, ← hafter b below rfl, inPlace_nil]
  · have hinner : ({ Builder.new b.indent with level := j }.text (unlines ls)).buffer =
        unlines (ls.map (Layout.placed b.indent j)) := by
      rw [Builder.text_eq, lines_unlines_of_isLine hls]
      exact String.empty_append
    rw [hinner, Builder.text_eq, Builder.text_eq, lines_unlines_of_isLine hls,
      lines_unlines_of_isLine (hplaced j), List.map_map]
    simp [Builder.appendLines, Function.comp_def, Layout.placed_placed]

/-- A class with a base, a label and an empty line. -/
def classSteps : List BuildStep :=
  [.line "class A final", .continuation ": public B", .openScope "\x7d;", .label "public:", .blank,
    .line "int a;", .closeScope]

/-- The text of the class on its own. -/
def classText : String :=
  "class A final\n\t: public B\n\x7b\npublic:\n\n\tint a;\n\x7d;\n"

theorem classSteps_after_eq_text :
    LineFree namespaceBody.builder.indent ∧ Nested 0 classSteps ∧ Embeddable 0 classSteps ∧
      namespaceBody.after classSteps = ⟨namespaceBody.builder.text classText, ["\x7d"]⟩ ∧
      ({ namespaceBody.builder with level := 3 }.text
          ({ Builder.new "\t" with level := 2 }.text classText).buffer).buffer =
        ({ namespaceBody.builder with level := 5 }.text classText).buffer := by
  have hindent : LineFree namespaceBody.builder.indent := by decide
  have hnested : Nested 0 classSteps := by decide
  have hsteps : Embeddable 0 classSteps := by decide
  have htext : ((new namespaceBody.builder.indent).after classSteps).builder.buffer = classText :=
    rfl
  obtain ⟨hplace, htwice⟩ := after_eq_text namespaceBody.builder ["\x7d"] hindent hnested hsteps
  rw [htext] at hplace htwice
  exact ⟨hindent, hnested, hsteps, hplace, htwice 2 3⟩

end Scopes

end SdkHeaders
