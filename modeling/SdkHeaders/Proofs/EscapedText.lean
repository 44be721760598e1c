import SdkHeaders.Cpp.Literal
import Mathlib.Algebra.Ring.Parity
import Mathlib.Data.List.DropRight
import Mathlib.Data.List.Induction

/-!
# Escaped texts between quotes

Why a literal around an escaped text ends at its own closing quote, and how the text is read back.

Main results:

- Structure `Literal.Guarded` says that each double quote of a text stands behind an odd run of
  backslashes and that the text does not end in one.
- Theorem `Literal.guarded_append_iff`: a guarded start can be taken off a text, so that texts are
  checked block by block.
- Theorem `Literal.wideBody?_wide_eq_some_iff`: a literal around a text ends at its own closing
  quote exactly if the text is guarded.
- Theorem `Literal.escape_spec`: an escaped text is guarded and gives the text back, and escaping is
  injective and distributes over concatenation.
-/

namespace SdkHeaders.Literal

/-! ## Runs of backslashes -/

/-- The length of the run of backslashes at the end of a text. -/
def backslashRun (cs : List Char) : Nat :=
  (cs.rtakeWhile (· = '\\')).length

@[simp] theorem backslashRun_nil : backslashRun [] = 0 := rfl

theorem backslashRun_concat (cs : List Char) (c : Char) :
    backslashRun (cs ++ [c]) = if c = '\\' then backslashRun cs + 1 else 0 := by
  simp only [backslashRun, List.rtakeWhile_concat, decide_eq_true_eq]
  split
  · exact List.length_append
  · rfl

/-- A start that ends in an even run does not change the parity of the run at the end. -/
theorem even_backslashRun_append_iff {start : List Char} (h : Even (backslashRun start))
    (cs : List Char) : Even (backslashRun (start ++ cs)) ↔ Even (backslashRun cs) := by
  -- a run grows at the end of the text, so the induction appends characters there
  induction cs using List.reverseRecOn with
  | nil => simp [h]
  | append_singleton cs c ih =>
      rw [← List.append_assoc, backslashRun_concat, backslashRun_concat]
      split
      · rw [Nat.even_add_one, Nat.even_add_one, ih]
      · rfl

/-! ## Guarded texts -/

/-- Each double quote of a text stands behind an odd run of backslashes, and the text does not end
in an odd run. -/
structure Guarded (cs : List Char) : Prop where
  /-- The run before each quote. -/
  odd_before : ∀ before after, cs = before ++ '"' :: after → Odd (backslashRun before)
  /-- The run at the end. -/
  even_end : Even (backslashRun cs)

theorem guarded_nil : Guarded [] where
  odd_before before after h := by simp at h
  even_end := Even.zero

/-- A character that needs no backslash is guarded. -/
theorem guarded_singleton {c : Char} (hslash : c ≠ '\\') (hquote : c ≠ '"') : Guarded [c] where
  odd_before before after h := by
    have hmem : '"' ∈ [c] := h ▸ List.mem_append_right before List.mem_cons_self
    exact absurd (List.mem_singleton.mp hmem).symm hquote
  even_end := by
    rw [← List.nil_append [c], backslashRun_concat, if_neg hslash]
    exact Even.zero

/-- A backslash guards the character that it takes with it. -/
theorem guarded_pair (c : Char) : Guarded ['\\', c] where
  odd_before before after h := by
    cases before with
    | nil => exact absurd (List.cons.inj h).1 (by decide)
    | cons b before =>
        obtain ⟨rfl, hrest⟩ := List.cons.inj h
        obtain ⟨rfl, -⟩ | ⟨-, hempty⟩ := List.singleton_eq_append_iff.mp hrest
        · decide
        · cases hempty
  even_end := by
    have hpair : backslashRun ['\\', c] = if c = '\\' then 2 else 0 := backslashRun_concat ['\\'] c
    rw [hpair]
    split <;> decide

theorem not_guarded_quote_cons (cs : List Char) : ¬ Guarded ('"' :: cs) := by
  intro h
  exact absurd (h.odd_before [] cs rfl) (by decide)

/-- A guarded start can be taken off a text. -/
theorem guarded_append_iff {start : List Char} (hstart : Guarded start) (cs : List Char) :
    Guarded (start ++ cs) ↔ Guarded cs := by
  have heven := even_backslashRun_append_iff hstart.even_end
  have hodd : ∀ before, Odd (backslashRun (start ++ before)) ↔ Odd (backslashRun before) := by
    intro before
    rw [← Nat.not_even_iff_odd, heven, Nat.not_even_iff_odd]
  constructor
  · intro h
    refine ⟨fun before after hcs => ?_, (heven cs).mp h.even_end⟩
    rw [← hodd]
    exact h.odd_before _ after (by rw [hcs, List.append_assoc])
  · intro h
    refine ⟨fun before after hcs => ?_, (heven cs).mpr h.even_end⟩
    -- the quote stands behind the start or in it
    rcases List.append_eq_append_iff.mp hcs with ⟨more, rfl, hmore⟩ | ⟨more, hmore, hrest⟩
    · exact (hodd more).mpr (h.odd_before more after hmore)
    · cases more with
      | nil =>
          rw [List.nil_append] at hrest
          exact absurd (hrest ▸ h) (not_guarded_quote_cons after)
      | cons d more =>
          obtain ⟨rfl, -⟩ := List.cons.inj hrest
          exact hstart.odd_before before more hmore

/-- An escaped text is guarded. -/
theorem guarded_escapeChars (cs : List Char) : Guarded (escapeChars cs) := by
  induction cs with
  | nil => exact guarded_nil
  | cons c rest ih =>
      unfold escapeChars
      split
      · exact (guarded_append_iff (guarded_pair c) _).mpr ih
      · next hc =>
          obtain ⟨hslash, hquote⟩ := not_or.mp hc
          exact (guarded_append_iff (guarded_singleton hslash hquote) _).mpr ih

/-! ## The end of a literal -/

/-- What stands before the quote that closes a literal, and what follows that quote.  A backslash
takes the next character with it.  Line breaks, which no literal may hold, are passed over as other
characters are. -/
def body? : List Char → Option (List Char × List Char)
  | [] => none
  | '"' :: rest => some ([], rest)
  | ['\\'] => none
  | '\\' :: c :: rest => (body? rest).map (Prod.map (['\\', c] ++ ·) id)
  | c :: rest => (body? rest).map (Prod.map ([c] ++ ·) id)

/-- What stands between the quotes of the wide literal that starts a text, and what follows the
literal. -/
def wideBody? : List Char → Option (List Char × List Char)
  | 'L' :: '"' :: rest => body? rest
  | _ => none

theorem body?_cons {c : Char} (hslash : c ≠ '\\') (hquote : c ≠ '"') (rest : List Char) :
    body? (c :: rest) = (body? rest).map (Prod.map ([c] ++ ·) id) := by
  rw [body?]
  · exact hquote
  · exact fun hc _ => hslash hc
  · exact fun _ _ hc _ => hslash hc

/-- What is read behind more characters differs in these only. -/
theorem map_append_eq_some_iff (front cs rest : List Char)
    (read? : Option (List Char × List Char)) :
    read?.map (Prod.map (front ++ ·) id) = some (front ++ cs, rest) ↔
      read? = some (cs, rest) := by
  have hinjective : Function.Injective (Prod.map (front ++ ·) (id : List Char → List Char)) :=
    (List.append_right_injective front).prodMap Function.injective_id
  exact (Option.map_injective hinjective).eq_iff (b := some (cs, rest))

/-- A quote behind a text is the one that closes a literal exactly if the text is guarded. -/
theorem body?_append_quote_eq_some_iff (cs rest : List Char) :
    body? (cs ++ '"' :: rest) = some (cs, rest) ↔ Guarded cs := by
  -- what the reader takes off a text at once is a guarded start of it
  fun_induction body? cs with
  | case1 => exact iff_of_true rfl guarded_nil
  | case2 more =>
      refine iff_of_false ?_ (not_guarded_quote_cons more)
      simp [body?]
  | case3 =>
      refine iff_of_false ?_ fun h => absurd h.even_end (by decide)
      simp [body?]
  | case4 c more ih =>
      calc body? (['\\', c] ++ (more ++ '"' :: rest)) = some (['\\', c] ++ more, rest)
        _ ↔ body? (more ++ '"' :: rest) = some (more, rest) := map_append_eq_some_iff _ _ _ _
        _ ↔ Guarded more := ih
        _ ↔ Guarded (['\\', c] ++ more) := (guarded_append_iff (guarded_pair c) more).symm
  | case5 c more hquote hslash hpair ih =>
      have hc : c ≠ '\\' := by
        rintro rfl
        cases more with
        | nil => exact hslash rfl rfl
        | cons d more => exact hpair d more rfl rfl
      rw [List.cons_append, body?_cons hc hquote]
      calc
        _ ↔ body? (more ++ '"' :: rest) = some (more, rest) := map_append_eq_some_iff [c] _ _ _
        _ ↔ Guarded more := ih
        _ ↔ Guarded ([c] ++ more) :=
          (guarded_append_iff (guarded_singleton hc hquote) more).symm

/-- A wide literal around a text ends at its own closing quote exactly if the text is guarded. -/
theorem wideBody?_wide_eq_some_iff (s : String) (rest : List Char) :
    wideBody? ((wide s).toList ++ rest) = some (s.toList, rest) ↔ Guarded s.toList := by
  have hwide : (wide s).toList ++ rest = 'L' :: '"' :: (s.toList ++ '"' :: rest) := by
    simp [wide]
  rw [hwide]
  exact body?_append_quote_eq_some_iff s.toList rest

-- a quote without a backslash ends the literal, and a last backslash takes the closing quote
example : wideBody? (wide "a\"b").toList = some (['a'], ['b', '"']) ∧
    wideBody? (wide "a\\").toList = none := by decide

/-! ## Taking the backslashes away -/

/-- Take one backslash away before each backslash and each quote that is escaped, from left to
right. -/
def unescapeChars : List Char → List Char
  | [] => []
  | '\\' :: '\\' :: rest => '\\' :: unescapeChars rest
  | '\\' :: '"' :: rest => '"' :: unescapeChars rest
  | c :: rest => c :: unescapeChars rest

/-- The text without the backslashes of its escaped characters. -/
def unescape (s : String) : String :=
  String.ofList (unescapeChars s.toList)

theorem unescapeChars_cons {c : Char} (hslash : c ≠ '\\') (rest : List Char) :
    unescapeChars (c :: rest) = c :: unescapeChars rest := by
  rw [unescapeChars]
  · exact fun _ hc _ => hslash hc
  · exact fun _ hc _ => hslash hc

theorem unescapeChars_escapeChars (cs : List Char) : unescapeChars (escapeChars cs) = cs := by
  induction cs with
  | nil => rfl
  | cons c rest ih =>
      unfold escapeChars
      split
      · next hc => rcases hc with rfl | rfl <;> exact congrArg _ ih
      · next hc => rw [unescapeChars_cons (not_or.mp hc).1, ih]

theorem unescape_escape (s : String) : unescape (escape s) = s := by
  rw [unescape, escape, String.toList_ofList, unescapeChars_escapeChars, String.ofList_toList]

theorem escape_append (s t : String) : escape (s ++ t) = escape s ++ escape t := by
  unfold escape
  rw [String.toList_append, escapeChars_append, String.ofList_append]

/-- An escaped text gives the text back without the backslashes of its escaped characters.  Each
of its quotes stands behind an odd run of backslashes and it does not end in one, so a literal
around it ends at its own closing quote, whatever follows.  Escaping distributes over concatenation
and is injective. -/
theorem escape_spec :
    (∀ s, unescape (escape s) = s) ∧
    (∀ s, Guarded (escape s).toList) ∧
    (∀ s rest, wideBody? ((wide (escape s)).toList ++ rest) = some ((escape s).toList, rest)) ∧
    (∀ s t, escape (s ++ t) = escape s ++ escape t) ∧ Function.Injective escape := by
  have hguarded : ∀ s, Guarded (escape s).toList := by
    intro s
    rw [escape, String.toList_ofList]
    exact guarded_escapeChars s.toList
  have hclosed : ∀ s rest,
      wideBody? ((wide (escape s)).toList ++ rest) = some ((escape s).toList, rest) := by
    intro s rest
    exact (wideBody?_wide_eq_some_iff (escape s) rest).mpr (hguarded s)
  have hinjective : Function.Injective escape := Function.LeftInverse.injective unescape_escape
  exact ⟨unescape_escape, hguarded, hclosed, escape_append, hinjective⟩

end SdkHeaders.Literal
