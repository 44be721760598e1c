import SdkHeaders.Cpp.Literal

/-!
# What literals denote

The text that a string literal of C++ denotes, following the grammar of string literals: what
stands between the quotes is a sequence of characters and escape sequences on one line.

Main results:

- Relation `Literal.Denotes` says which text the characters between two quotes denote.
- Theorem `Literal.Denotes.unique`: the text is determined by the characters.
- Theorem `Literal.denotes_self_iff`: a text that is taken as it stands denotes itself exactly if
  it holds no quote, no backslash and no line break.
- Theorem `Literal.denotes_escape_iff`: an escaped text denotes the text exactly if that holds no
  line break.
-/

namespace SdkHeaders.Literal

/-! ## Escape sequences -/

/-- The characters that stand for others behind a backslash. -/
def simpleEscapes : List (Char × Char) :=
  [('\'', '\''), ('"', '"'), ('?', '?'), ('\\', '\\'), ('a', '\x07'), ('b', '\x08'),
    ('f', '\x0C'), ('n', '\n'), ('r', '\r'), ('t', '\t'), ('v', '\x0B')]

/-- The value of a digit; other characters have a value that no digit has. -/
def digitValue (c : Char) : Nat :=
  "0123456789abcdef".toList.idxOf c.toLower

/-- The number that is written by digits. -/
def numberOf (base : Nat) (digits : List Char) : Nat :=
  digits.foldl (fun n d => n * base + digitValue d) 0

/-- An escape sequence without its backslash, the character that it denotes, and what follows it.
Octal and hexadecimal sequences are as long as possible. -/
inductive Escapes : List Char → Char → List Char → Prop
  | simple {e c : Char} {rest : List Char} (h : (e, c) ∈ simpleEscapes) : Escapes [e] c rest
  | octal {digits : List Char} {c : Char} {rest : List Char} (hne : digits ≠ [])
      (hdigits : ∀ d ∈ digits, digitValue d < 8)
      (hlongest : digits.length = 3 ∨ digits.length < 3 ∧ ∀ d ∈ rest.head?, 8 ≤ digitValue d)
      (hvalue : c.toNat = numberOf 8 digits) : Escapes digits c rest
  | hexadecimal {digits : List Char} {c : Char} {rest : List Char} (hne : digits ≠ [])
      (hdigits : ∀ d ∈ digits, digitValue d < 16)
      (hlongest : ∀ d ∈ rest.head?, 16 ≤ digitValue d)
      (hvalue : c.toNat = numberOf 16 digits) : Escapes ('x' :: digits) c rest
  | universal {u : Char} {digits : List Char} {c : Char} {rest : List Char}
      (hlength : (u, digits.length) ∈ [('u', 4), ('U', 8)])
      (hdigits : ∀ d ∈ digits, digitValue d < 16)
      (hvalue : c.toNat = numberOf 16 digits) : Escapes (u :: digits) c rest

theorem Escapes.ne_nil {e : List Char} {c : Char} {rest : List Char} (h : Escapes e c rest) :
    e ≠ [] := by
  cases h with
  | octal hne => exact hne
  | _ => exact List.cons_ne_nil _ _

/-- Two runs of characters of one kind that start the same list are the same if each is as long as
possible, up to a largest length. -/
theorem run_unique {kind : Char → Prop} {n : Nat} {run rest run' rest' : List Char}
    (heq : run ++ rest = run' ++ rest') (hrun : ∀ d ∈ run, kind d) (hrun' : ∀ d ∈ run', kind d)
    (hlongest : run.length = n ∨ run.length < n ∧ ∀ d ∈ rest.head?, ¬ kind d)
    (hlongest' : run'.length = n ∨ run'.length < n ∧ ∀ d ∈ rest'.head?, ¬ kind d) :
    run = run' := by
  -- A run that stops earlier is followed by a character of the other one.
  have hstop : ∀ {short tail more : List Char}, (∀ d ∈ short ++ more, kind d) →
      (short.length = n ∨ short.length < n ∧ ∀ d ∈ (more ++ tail).head?, ¬ kind d) →
      (short ++ more).length ≤ n → more = [] := by
    intro short tail more hall hlong hlength
    cases more with
    | nil => rfl
    | cons d others =>
        rw [List.length_append, List.length_cons] at hlength
        rcases hlong with hfull | ⟨-, hnext⟩
        · omega
        · exact absurd (hall d (by simp)) (hnext d rfl)
  have hle : run.length ≤ n := by omega
  have hle' : run'.length ≤ n := by omega
  rcases List.append_eq_append_iff.mp heq with ⟨more, rfl, rfl⟩ | ⟨more, rfl, rfl⟩
  · rw [hstop hrun' hlongest hle', List.append_nil]
  · rw [hstop hrun hlongest' hle, List.append_nil]

/-- The kind of an escape sequence, as its first character tells it. -/
def kindOf (first : Char) : Nat :=
  if digitValue first < 8 then 1
  else if first = 'x' then 2
  else if first ∈ ['u', 'U'] then 3
  else 0

/-- What an escape sequence of each kind consists of. -/
theorem Escapes.cases_kind {first c : Char} {more rest : List Char}
    (h : Escapes (first :: more) c rest) :
    (kindOf first = 0 ∧ more = [] ∧ (first, c) ∈ simpleEscapes) ∨
    (kindOf first = 1 ∧ (∀ d ∈ first :: more, digitValue d < 8) ∧
      ((first :: more).length = 3 ∨
        (first :: more).length < 3 ∧ ∀ d ∈ rest.head?, ¬ digitValue d < 8) ∧
      c.toNat = numberOf 8 (first :: more)) ∨
    (kindOf first = 2 ∧ (∀ d ∈ more, digitValue d < 16) ∧
      (∀ d ∈ rest.head?, ¬ digitValue d < 16) ∧ c.toNat = numberOf 16 more) ∨
    (kindOf first = 3 ∧ (first, more.length) ∈ [('u', 4), ('U', 8)] ∧
      c.toNat = numberOf 16 more) := by
  cases h with
  | simple h =>
      have hkind : ∀ row ∈ simpleEscapes, kindOf row.1 = 0 := by decide
      exact .inl ⟨hkind _ h, rfl, h⟩
  | octal _ hdigits hlongest hvalue =>
      have hkind : kindOf first = 1 := if_pos (hdigits first List.mem_cons_self)
      simp only [Nat.not_lt]
      exact .inr (.inl ⟨hkind, hdigits, hlongest, hvalue⟩)
  | hexadecimal _ hdigits hlongest hvalue =>
      simp only [Nat.not_lt]
      exact .inr (.inr (.inl ⟨by decide, hdigits, hlongest, hvalue⟩))
  | universal hlength _ hvalue =>
      have hkind : ∀ row ∈ [('u', 4), ('U', 8)], kindOf row.1 = 3 := by decide
      exact .inr (.inr (.inr ⟨hkind _ hlength, hlength, hvalue⟩))

/-- An escape sequence and its meaning are determined by the text that it starts. -/
theorem Escapes.unique {e rest e' rest' : List Char} {c c' : Char} (h : Escapes e c rest)
    (h' : Escapes e' c' rest') (heq : e ++ rest = e' ++ rest') : e = e' ∧ c = c' := by
  obtain ⟨first, more, rfl⟩ := List.exists_cons_of_ne_nil h.ne_nil
  obtain ⟨first', more', rfl⟩ := List.exists_cons_of_ne_nil h'.ne_nil
  obtain ⟨rfl, htail⟩ := List.cons.inj heq
  have hresult : more = more' → c.toNat = c'.toNat → first :: more = first :: more' ∧ c = c' :=
    fun hmore hc => ⟨congrArg _ hmore, Char.toNat_inj.mp hc⟩
  -- Sequences of different kinds differ in their first character.
  rcases h.cases_kind with ⟨hkind, hempty, hrow⟩ | ⟨hkind, hall, hlong, hvalue⟩ |
      ⟨hkind, hall, hlong, hvalue⟩ | ⟨hkind, hlength, hvalue⟩ <;>
    rcases h'.cases_kind with ⟨hkind', hempty', hrow'⟩ | ⟨hkind', hall', hlong', hvalue'⟩ |
      ⟨hkind', hall', hlong', hvalue'⟩ | ⟨hkind', hlength', hvalue'⟩ <;>
    try omega
  case inl.inl =>
    have hrows : ∀ row ∈ simpleEscapes, ∀ row' ∈ simpleEscapes, row.1 = row'.1 →
        row.2 = row'.2 := by decide
    exact ⟨by rw [hempty, hempty'], hrows _ hrow _ hrow' rfl⟩
  case inr.inl.inr.inl =>
    have hmore := run_unique heq hall hall' hlong hlong'
    rw [← hmore] at hvalue'
    exact ⟨hmore, Char.toNat_inj.mp (hvalue.trans hvalue'.symm)⟩
  case inr.inr.inl.inr.inr.inl =>
    have hmore : more = more' :=
      run_unique (n := more.length + more'.length + 1) htail hall hall'
        (.inr ⟨by omega, hlong⟩) (.inr ⟨by omega, hlong'⟩)
    exact hresult hmore (by rw [hvalue, hvalue', hmore])
  case inr.inr.inr.inr.inr.inr =>
    have hrows : ∀ row ∈ [('u', 4), ('U', 8)], ∀ row' ∈ [('u', 4), ('U', 8)], row.1 = row'.1 →
        row.2 = row'.2 := by decide
    obtain ⟨hmore, -⟩ := List.append_inj htail (hrows _ hlength _ hlength' rfl)
    exact hresult hmore (by rw [hvalue, hvalue', hmore])

/-! ## Literals -/

/-- The characters that end a line. -/
def lineBreaks : List Char := ['\n', '\r']

theorem forall_lineBreaks_iff {p : Char → Prop} : (∀ b ∈ lineBreaks, p b) ↔ p '\n' ∧ p '\r' := by
  simp [lineBreaks]

/-- The characters that do not stand for themselves in a literal. -/
def specials : List Char := ['"', '\\', '\n', '\r']

/-- The text that the characters between two quotes denote. -/
inductive Denotes : List Char → List Char → Prop
  | nil : Denotes [] []
  | plain {c : Char} {rest value : List Char} (hc : c ∉ specials) (h : Denotes rest value) :
      Denotes (c :: rest) (c :: value)
  | escape {e : List Char} {c : Char} {rest value : List Char} (he : Escapes e c rest)
      (h : Denotes rest value) : Denotes ('\\' :: (e ++ rest)) (c :: value)

/-- No escape sequence holds a line break. -/
theorem Escapes.not_mem {e : List Char} {c : Char} {rest : List Char} (h : Escapes e c rest) :
    ∀ b ∈ lineBreaks, b ∉ e := by
  have hdigits : ∀ b ∈ lineBreaks, 16 ≤ digitValue b := forall_lineBreaks_iff.mpr (by decide)
  have hnot : ∀ {base : Nat} {digits : List Char}, base ≤ 16 →
      (∀ d ∈ digits, digitValue d < base) → ∀ b ∈ lineBreaks, b ∉ digits := by
    intro base digits hbase hall b hb hmem
    have hlow := hall b hmem
    have hhigh := hdigits b hb
    omega
  intro b hb
  cases h with
  | @simple e _ _ h =>
      have hrows : ∀ row ∈ simpleEscapes, '\n' ≠ row.1 ∧ '\r' ≠ row.1 := by decide
      have hmark : ∀ b ∈ lineBreaks, b ≠ e := forall_lineBreaks_iff.mpr (hrows _ h)
      simpa using hmark b hb
  | octal _ hall => exact hnot (by omega) hall b hb
  | hexadecimal _ hall =>
      have hmark : ∀ b ∈ lineBreaks, b ≠ 'x' := forall_lineBreaks_iff.mpr (by decide)
      simpa using ⟨hmark b hb, hnot (Nat.le_refl 16) hall b hb⟩
  | @universal u _ _ _ hlength hall =>
      have hrows : ∀ row ∈ [('u', 4), ('U', 8)], '\n' ≠ row.1 ∧ '\r' ≠ row.1 := by decide
      have hmark : ∀ b ∈ lineBreaks, b ≠ u := forall_lineBreaks_iff.mpr (hrows _ hlength)
      simpa using ⟨hmark b hb, hnot (Nat.le_refl 16) hall b hb⟩

namespace Denotes

variable {cs value : List Char}

/-- What denotes a text stands on one line. -/
theorem not_mem (h : Denotes cs value) : ∀ b ∈ lineBreaks, b ∉ cs := by
  have hspecials : ∀ b ∈ lineBreaks, b ∈ specials ∧ b ≠ '\\' :=
    forall_lineBreaks_iff.mpr (by decide)
  intro b hb
  induction h with
  | nil => exact List.not_mem_nil
  | plain hc _ ih =>
      refine List.not_mem_cons_of_ne_of_not_mem ?_ ih
      rintro rfl
      exact hc (hspecials _ hb).1
  | escape he _ ih =>
      refine List.not_mem_cons_of_ne_of_not_mem (hspecials b hb).2 ?_
      rw [List.mem_append, not_or]
      exact ⟨he.not_mem b hb, ih⟩

/-- A literal is at least as long as the text that it denotes, and longer if it holds an escape
sequence. -/
theorem length_le (h : Denotes cs value) :
    value.length ≤ cs.length ∧ (value.length = cs.length → ∀ c ∈ specials, c ∉ cs) := by
  induction h with
  | nil => exact ⟨Nat.le_refl 0, fun _ _ _ => List.not_mem_nil⟩
  | plain hc _ ih =>
      refine ⟨Nat.succ_le_succ ih.1, fun heq d hd => ?_⟩
      refine List.not_mem_cons_of_ne_of_not_mem ?_ (ih.2 (Nat.succ.inj heq) d hd)
      rintro rfl
      exact hc hd
  | escape he _ ih =>
      have hlength := List.length_pos_iff.mpr he.ne_nil
      simp only [List.length_cons, List.length_append]
      exact ⟨by omega, fun heq => by omega⟩

end Denotes

/-- A literal denotes only one text. -/
theorem Denotes.unique {cs value value' : List Char} (h : Denotes cs value)
    (h' : Denotes cs value') : value = value' := by
  have hspecial : '\\' ∈ specials := by decide
  induction h generalizing value' with
  | nil => cases h'; rfl
  | plain hc _ ih =>
      cases h' with
      | plain _ h' => rw [ih h']
      | escape => exact absurd hspecial hc
  | escape he _ ih =>
      generalize hcs : '\\' :: (_ ++ _) = cs at h'
      cases h' with
      | nil => cases hcs
      | plain hc =>
          obtain ⟨rfl, -⟩ := List.cons.inj hcs
          exact absurd hspecial hc
      | escape he' h' =>
          obtain ⟨-, htail⟩ := List.cons.inj hcs
          obtain ⟨rfl, rfl⟩ := he.unique he' htail
          rw [ih (List.append_cancel_left htail ▸ h')]

/-- A text that is taken as it stands denotes itself exactly if all of its characters stand for
themselves. -/
theorem denotes_self_iff (cs : List Char) : Denotes cs cs ↔ ∀ c ∈ specials, c ∉ cs := by
  constructor
  · intro h
    exact h.length_le.2 rfl
  · intro h
    induction cs with
    | nil => exact .nil
    | cons c rest ih =>
        have hc : c ∉ specials := fun hmem => h c hmem List.mem_cons_self
        exact .plain hc (ih fun d hd hmem => h d hd (List.mem_cons_of_mem c hmem))

theorem mem_escapeChars_iff {b : Char} (hb : b ≠ '\\') (cs : List Char) :
    b ∈ escapeChars cs ↔ b ∈ cs := by
  induction cs with
  | nil => rfl
  | cons c rest ih =>
      unfold escapeChars
      split <;> simp [hb, ih]

/-- An escaped text denotes the text exactly if the text stands on one line. -/
theorem denotes_escape_iff (cs : List Char) :
    Denotes (escapeChars cs) cs ↔ ∀ c ∈ lineBreaks, c ∉ cs := by
  constructor
  · intro h b hb
    have hne : ∀ b ∈ lineBreaks, b ≠ '\\' := forall_lineBreaks_iff.mpr (by decide)
    rw [← mem_escapeChars_iff (hne b hb)]
    exact h.not_mem b hb
  · intro h
    induction cs with
    | nil => exact .nil
    | cons c rest ih =>
        have hrest := ih fun d hd hmem => h d hd (List.mem_cons_of_mem c hmem)
        unfold escapeChars
        split
        · next hc =>
            have hsimple : (c, c) ∈ simpleEscapes := by
              rcases hc with rfl | rfl <;> decide
            exact .escape (.simple hsimple) hrest
        · next hc =>
            have hbreak : c ∉ lineBreaks := fun hmem => h c hmem List.mem_cons_self
            refine .plain ?_ hrest
            simp only [specials, lineBreaks, List.mem_cons, not_or] at hc hbreak ⊢
            exact ⟨hc.2, hc.1, hbreak⟩

end SdkHeaders.Literal
