import SdkHeaders.Proofs.HeaderText
import SdkHeaders.Proofs.NameCharacters

/-!
# Nesting of braces

Whether each brace that is closed in a text has been opened before and none stays open.  Only the
braces of a text matter for this, and these are the braces of the code that the text was written
from, however deep it was indented.

Main results:

- Structure `Text.Balanced` says how braces are nested, and theorems `Text.Balanced.append` and
  `Text.Balanced.enclosed` put texts together.
- Definition `Layout.braces` lists the braces of a piece of code, and theorem `Layout.braces_render`
  says that they are those of its text.
- Relation `Layout.Closed` says that scopes end in the brace that closes them, and theorem
  `Layout.balanced_render` that the text of such code is balanced.
-/

namespace SdkHeaders

/-! ## Braces of a text -/

namespace Text

/-- Whether a character is a brace. -/
def isBrace (c : Char) : Bool :=
  c = '\x7b' || c = '\x7d'

/-- The braces of a text, in order. -/
def braces (s : String) : List Char :=
  s.toList.filter isBrace

@[simp] theorem braces_append (s t : String) : braces (s ++ t) = braces s ++ braces t := by
  simp [braces]

/-- A text without braces. -/
abbrev BraceFree (s : String) : Prop :=
  FreeOf ['\x7b', '\x7d'] s

theorem BraceFree.filter_eq {s : String} (h : BraceFree s) : s.toList.filter isBrace = [] := by
  rw [List.filter_eq_nil_iff]
  intro c hc
  have hopening : c ≠ '\x7b' := ne_of_mem_of_not_mem hc (h _ (by simp))
  have hclosing : c ≠ '\x7d' := ne_of_mem_of_not_mem hc (h _ (by simp))
  simp [isBrace, hopening, hclosing]

theorem BraceFree.braces_eq {s : String} (h : BraceFree s) : braces s = [] :=
  h.filter_eq

/-- As many braces are closed as opened, and nowhere more have been closed than opened. -/
structure Balanced (cs : List Char) : Prop where
  total : cs.count '\x7b' = cs.count '\x7d'
  start : ∀ before, before <+: cs → before.count '\x7d' ≤ before.count '\x7b'

variable {cs ds : List Char}

@[simp] theorem balanced_nil : Balanced [] where
  total := rfl
  start before h := by simp [List.prefix_nil.mp h]

theorem Balanced.append (h : Balanced cs) (h' : Balanced ds) : Balanced (cs ++ ds) where
  total := by rw [List.count_append, List.count_append, h.total, h'.total]
  start before hbefore := by
    rcases List.prefix_or_prefix_of_prefix hbefore (List.prefix_append cs ds) with hpre | hpre
    · exact h.start before hpre
    · obtain ⟨rest, rfl⟩ := hpre
      have hrest := h'.start rest ((List.prefix_append_right_inj cs).mp hbefore)
      rw [List.count_append, List.count_append, h.total]
      omega

theorem Balanced.enclosed (h : Balanced cs) : Balanced ('\x7b' :: (cs ++ ['\x7d'])) where
  total := by simp [h.total]
  start before hbefore := by
    rcases List.prefix_cons_iff.mp hbefore with rfl | ⟨rest, rfl, hrest⟩
    · simp
    · rcases List.prefix_concat_iff.mp hrest with rfl | hpre
      · simp [h.total]
      · have hstart := h.start rest hpre
        simp
        omega

@[simp] theorem balanced_pair : Balanced ['\x7b', '\x7d'] :=
  balanced_nil.enclosed

theorem count_filter_isBrace (cs : List Char) :
    (cs.filter isBrace).count '\x7b' = cs.count '\x7b' ∧
      (cs.filter isBrace).count '\x7d' = cs.count '\x7d' :=
  ⟨List.count_filter rfl, List.count_filter rfl⟩

/-- Only braces matter for whether braces are balanced. -/
theorem balanced_filter_iff : Balanced (cs.filter isBrace) ↔ Balanced cs := by
  have hcounts := count_filter_isBrace
  constructor
  · intro h
    constructor
    · rw [← (hcounts cs).1, ← (hcounts cs).2, h.total]
    · intro before hbefore
      rw [← (hcounts before).1, ← (hcounts before).2]
      exact h.start _ (hbefore.filter isBrace)
  · intro h
    constructor
    · rw [(hcounts cs).1, (hcounts cs).2, h.total]
    · rintro before ⟨after, hafter⟩
      -- What the braces start with are the braces of what the text starts with.
      obtain ⟨first, rest, rfl, rfl, -⟩ := List.filter_eq_append_iff.mp hafter.symm
      rw [(hcounts first).1, (hcounts first).2]
      exact h.start first (List.prefix_append first rest)

/-! ## Braces of lines -/

@[simp] theorem braces_ofList (cs : List Char) : braces (String.ofList cs) = cs.filter isBrace := by
  rw [braces, String.toList_ofList]

/-- What stands between an opening and a closing brace holds no others. -/
theorem braces_pair {before inner after : String} (hbefore : braces before = ['\x7b'])
    (hinner : BraceFree inner) (hafter : braces after = ['\x7d']) :
    braces (before ++ inner ++ after) = ['\x7b', '\x7d'] := by
  rw [braces_append, braces_append, hbefore, hinner.braces_eq, hafter]
  rfl

theorem braces_unlines (ls : List String) : braces (unlines ls) = ls.flatMap braces := by
  induction ls with
  | nil => rfl
  | cons line rest ih =>
      rw [unlines, braces_append, braces_append, ih]
      simp [braces, isBrace]

/-- Line breaks are no braces. -/
theorem flatMap_braces_lines (s : String) : (lines s).flatMap braces = braces s := by
  rw [lines, List.flatMap_map, braces]
  simp only [braces_ofList]
  generalize s.toList = cs
  fun_induction lineList cs with
  | case1 => rfl
  | case2 rest ih => simpa [isBrace] using ih
  | case3 rest ih => simpa [isBrace] using ih
  | case4 c rest hreturn hfeed ih =>
      rw [List.filter_cons, ← ih]
      cases lineList rest with
      | nil => by_cases hc : isBrace c <;> simp [consLine, hc]
      | cons first others => by_cases hc : isBrace c <;> simp [consLine, hc]

end Text

/-! ## Braces of code -/

namespace Layout

open Text

mutual

/-- The braces of a piece of code. -/
def braces : Layout → List Char
  | .line s => Text.braces s
  | .continuation s => Text.braces s
  | .label s => Text.braces s
  | .blank => []
  | .text s => Text.braces s
  | .scope close body => '\x7b' :: (bracesOf body ++ Text.braces close)

/-- The braces of pieces of code. -/
def bracesOf : List Layout → List Char
  | [] => []
  | first :: rest => first.braces ++ bracesOf rest

end

section Indent

variable {indent : String}

theorem braces_indentation (hindent : Text.braces indent = []) (level : Nat) :
    Text.braces (Builder.indentation indent level) = [] := by
  induction level with
  | zero => rfl
  | succ level ih => simp [Builder.indentation, hindent, ih]

theorem braces_placed (hindent : Text.braces indent = []) (level : Nat) (line : String) :
    Text.braces (placed indent level line) = Text.braces line := by
  unfold placed
  split
  · next h => rw [h]
  · simp [braces_indentation hindent]

mutual

/-- The lines of a piece of code have the braces of the code. -/
theorem flatMap_braces_linesOfOne (hindent : Text.braces indent = []) (level : Nat)
    (piece : Layout) :
    (piece.linesOfOne indent level).flatMap Text.braces = piece.braces := by
  have hindentation := braces_indentation hindent
  cases piece with
  | line s => simp [linesOfOne, braces, hindentation]
  | continuation s => simp [linesOfOne, braces, hindentation, hindent]
  | label s => simp [linesOfOne, braces, hindentation]
  | blank => rfl
  | text s =>
      rw [linesOfOne, List.flatMap_map, braces, ← flatMap_braces_lines]
      exact List.flatMap_congr fun line _ => braces_placed hindent level line
  | scope close body =>
      have hbody := flatMap_braces_linesOf hindent (level + 1) body
      have hopen : Text.braces "\x7b" = ['\x7b'] := rfl
      simp [linesOfOne, braces, hindentation, hbody, hopen]

/-- The lines of pieces of code have the braces of the code. -/
theorem flatMap_braces_linesOf (hindent : Text.braces indent = []) (level : Nat)
    (pieces : List Layout) :
    (linesOf indent level pieces).flatMap Text.braces = bracesOf pieces := by
  cases pieces with
  | nil => rfl
  | cons first rest =>
      rw [linesOf_cons, List.flatMap_append, flatMap_braces_linesOfOne hindent level first,
        flatMap_braces_linesOf hindent level rest, bracesOf]

end

/-- The text of pieces of code has the braces of the code. -/
theorem braces_render (hindent : Text.braces indent = []) (pieces : List Layout) :
    Text.braces (render indent pieces) = bracesOf pieces := by
  rw [render_eq, braces_unlines, flatMap_braces_linesOf hindent]

end Indent

/-! ## Closed code -/

/-- The braces of each line of a piece of code are balanced, and each scope ends in the brace that
closes it. -/
inductive Closed : Layout → Prop
  | line {s : String} (h : Balanced (Text.braces s)) : Closed (.line s)
  | continuation {s : String} (h : Balanced (Text.braces s)) : Closed (.continuation s)
  | label {s : String} (h : Balanced (Text.braces s)) : Closed (.label s)
  | blank : Closed .blank
  | text {s : String} (h : Balanced (Text.braces s)) : Closed (.text s)
  | scope {close : String} {body : List Layout} (hclose : Text.braces close = ['\x7d'])
      (hbody : ∀ piece ∈ body, Closed piece) : Closed (.scope close body)

@[simp] theorem closed_text_iff {s : String} : (text s).Closed ↔ Balanced (Text.braces s) :=
  ⟨fun h => by cases h with | text h => exact h, .text⟩

@[simp] theorem closed_braced_iff {body : List Layout} :
    (braced body).Closed ↔ ∀ piece ∈ body, piece.Closed :=
  ⟨fun h => by cases h with | scope _ h => exact h, .scope rfl⟩

theorem Closed.plain {s : String} (h : BraceFree s) : Closed (.line s) :=
  .line (by rw [h.braces_eq]; exact balanced_nil)

theorem Closed.paired {s : String} (h : Text.braces s = ['\x7b', '\x7d']) :
    Closed (.line s) :=
  .line (by rw [h]; exact balanced_pair)

theorem balanced_bracesOf_of_forall {pieces : List Layout}
    (h : ∀ piece ∈ pieces, Balanced piece.braces) : Balanced (bracesOf pieces) := by
  induction pieces with
  | nil => exact balanced_nil
  | cons first rest ih =>
      rw [List.forall_mem_cons] at h
      exact h.1.append (ih h.2)

/-- The braces of closed code are balanced. -/
theorem Closed.balanced {piece : Layout} (h : piece.Closed) : Balanced piece.braces := by
  induction h with
  | line h => exact h
  | continuation h => exact h
  | label h => exact h
  | blank => exact balanced_nil
  | text h => exact h
  | scope hclose _ ih =>
      rw [braces, hclose]
      exact (balanced_bracesOf_of_forall ih).enclosed

/-- Closed pieces of code are written as a text whose braces are balanced. -/
theorem balanced_render {indent : String} (hindent : Text.braces indent = [])
    {pieces : List Layout} (h : ∀ piece ∈ pieces, piece.Closed) :
    Balanced (Text.braces (render indent pieces)) := by
  rw [braces_render hindent]
  exact balanced_bracesOf_of_forall fun piece hpiece => (h piece hpiece).balanced

/-- Groups of closed code with empty lines between them are closed. -/
theorem forall_mem_spaced_closed {groups : List (List Layout)}
    (h : ∀ group ∈ groups, ∀ piece ∈ group, piece.Closed) :
    ∀ piece ∈ spaced groups, piece.Closed := by
  fun_induction spaced groups with
  | case1 => exact List.forall_mem_nil _
  | case2 group => exact h group List.mem_cons_self
  | case3 group rest _ ih =>
      rw [List.forall_mem_cons] at h
      rw [List.forall_mem_append, List.forall_mem_cons]
      exact ⟨h.1, .blank, ih h.2⟩

end Layout

end SdkHeaders
