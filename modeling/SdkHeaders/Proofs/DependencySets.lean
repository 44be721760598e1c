import SdkHeaders.Proofs.ByteOrder
import SdkHeaders.Proofs.Dependencies

/-!
# Sets of dependencies

What holds of dependencies however they have been collected: names are added to them, and the
dependencies of one owner are merged into those of another.

Main results:

- Structure `Dependencies.Sound` is the invariant of dependencies, and theorem
  `Dependencies.Collected.sound` says that they meet it however they have been collected.
- Theorem `Dependencies.Sound.ext`: an owner and two sets of names say all about dependencies.
- Theorem `Dependencies.sound_afterMoves`: the invariant and the owners outlast every sequence of
  moves on two sets of dependencies.
- Theorem `Dependencies.moves_spec` adds what merging comes to, and that neither the order nor the
  repetition of additions matters.
-/

namespace SdkHeaders

namespace Dependencies

/-! ## The invariant -/

/-- The names are listed in increasing order, none is empty, and the owner is not among the names
that other headers declare. -/
structure Sound (d : Dependencies) : Prop where
  system_increasing : d.system.Increasing
  user_increasing : d.user.Increasing
  system_named : "" ∉ d.system.toList
  user_named : "" ∉ d.user.toList
  owner_absent : d.owner ∉ d.user.toList

variable {d e : Dependencies}

theorem sound_new (owner : String) : (new owner).Sound where
  system_increasing := Text.NameSet.increasing_empty
  user_increasing := Text.NameSet.increasing_empty
  system_named := List.not_mem_nil
  user_named := List.not_mem_nil
  owner_absent := List.not_mem_nil

/-- Adding a library name keeps the invariant. -/
theorem Sound.addSystem (h : d.Sound) (name : String) : (d.addSystem name).Sound := by
  unfold Dependencies.addSystem
  split
  · exact h
  · next hname =>
      refine { h with system_increasing := h.system_increasing.insert name, system_named := ?_ }
      rw [Text.NameSet.mem_insert, not_or]
      exact ⟨Ne.symm hname, h.system_named⟩

/-- Adding a name that another header declares keeps the invariant. -/
theorem Sound.addUser (h : d.Sound) (name : String) : (d.addUser name).Sound := by
  unfold Dependencies.addUser
  split
  · exact h
  · next hname =>
      rw [not_or] at hname
      refine { h with
        user_increasing := h.user_increasing.insert name, user_named := ?_, owner_absent := ?_ }
      · rw [Text.NameSet.mem_insert, not_or]
        exact ⟨Ne.symm hname.1, h.user_named⟩
      · rw [Text.NameSet.mem_insert, not_or]
        exact ⟨Ne.symm hname.2, h.owner_absent⟩

/-- Adding a type name keeps the invariant. -/
theorem Sound.add (h : d.Sound) (name : TypeName) : (d.add name).Sound := by
  cases name with
  | system s => exact h.addSystem s
  | user s => exact h.addUser s

/-- Adding type names keeps the invariant. -/
theorem Sound.foldl_add (h : d.Sound) (names : List TypeName) :
    (names.foldl Dependencies.add d).Sound := by
  induction names generalizing d with
  | nil => exact h
  | cons name rest ih => exact ih (h.add name)

/-- Dependencies of one owner are equal if they have the same names. -/
theorem Sound.ext (hd : d.Sound) (he : e.Sound) (howner : d.owner = e.owner)
    (hsystem : ∀ x, x ∈ d.system.toList ↔ x ∈ e.system.toList)
    (huser : ∀ x, x ∈ d.user.toList ↔ x ∈ e.user.toList) : d = e := by
  have hs := hd.system_increasing.ext he.system_increasing hsystem
  have hu := hd.user_increasing.ext he.user_increasing huser
  cases d
  cases e
  simp only at howner hs hu
  rw [howner, hs, hu]

/-! ## Merging -/

/-- The names of dependencies, as they are added when these are merged into others. -/
def typeNames (d : Dependencies) : List TypeName :=
  d.system.toList.map .system ++ d.user.toList.map .user

/-- Merging adds the names of the other dependencies. -/
theorem merge_eq (d e : Dependencies) : d.merge e = e.typeNames.foldl add d := by
  rw [typeNames, List.foldl_append, List.foldl_map, List.foldl_map]
  rfl

@[simp] theorem owner_merge (d e : Dependencies) : (d.merge e).owner = d.owner := by
  rw [merge_eq, owner_foldl_add]

theorem Sound.merge (h : d.Sound) (e : Dependencies) : (d.merge e).Sound := by
  rw [merge_eq]
  exact h.foldl_add e.typeNames

/-- After merging, the library names of both are present. -/
theorem Sound.mem_system_merge (he : e.Sound) {x : String} :
    x ∈ (d.merge e).system.toList ↔ x ∈ d.system.toList ∨ x ∈ e.system.toList := by
  have hnamed : x ∈ e.system.toList → x ≠ "" := fun hx heq => he.system_named (heq ▸ hx)
  rw [merge_eq, mem_system_foldl_add]
  simp only [typeNames, List.mem_append, List.mem_map, TypeName.system.injEq, exists_eq_right,
    reduceCtorEq, and_false, exists_false, or_false]
  tauto

/-- After merging, the names of other headers of both are present, but for the name of the owner
that is kept. -/
theorem Sound.mem_user_merge (hd : d.Sound) (he : e.Sound) {x : String} :
    x ∈ (d.merge e).user.toList ↔
      (x ∈ d.user.toList ∨ x ∈ e.user.toList) ∧ x ≠ d.owner := by
  have hnamed : x ∈ e.user.toList → x ≠ "" := fun hx heq => he.user_named (heq ▸ hx)
  have howner : x ∈ d.user.toList → x ≠ d.owner := fun hx heq => hd.owner_absent (heq ▸ hx)
  rw [merge_eq, mem_user_foldl_add]
  simp only [typeNames, List.mem_append, List.mem_map, TypeName.user.injEq, exists_eq_right,
    reduceCtorEq, and_false, exists_false, false_or]
  tauto

/-- Merging the same dependencies again changes nothing. -/
theorem Sound.merge_merge (hd : d.Sound) (he : e.Sound) : (d.merge e).merge e = d.merge e := by
  apply ((hd.merge e).merge e).ext (hd.merge e) (owner_merge _ e)
  · intro x
    rw [he.mem_system_merge, he.mem_system_merge]
    tauto
  · intro x
    rw [(hd.merge e).mem_user_merge he, hd.mem_user_merge he, owner_merge]
    tauto

/-! ## Additions -/

/-- What is added to dependencies at a time. -/
inductive Addition where
  /-- A name from the language or its libraries. -/
  | system (name : String)
  /-- A name that another header declares. -/
  | user (name : String)
  /-- The type name that a model type stands for. -/
  | resolved (type : TypeName)
  deriving DecidableEq, Repr

/-- The type name that is added. -/
def Addition.typeName : Addition → TypeName
  | system name => .system name
  | user name => .user name
  | resolved type => type

/-- Add a name. -/
def addOne (d : Dependencies) : Addition → Dependencies
  | .system name => d.addSystem name
  | .user name => d.addUser name
  | .resolved type => d.add type

/-- Add names one after the other. -/
def addAll (d : Dependencies) (additions : List Addition) : Dependencies :=
  additions.foldl addOne d

/-- Every addition adds a type name. -/
theorem addAll_eq (d : Dependencies) (additions : List Addition) :
    d.addAll additions = (additions.map Addition.typeName).foldl add d := by
  have hone : addOne = fun d (a : Addition) => d.add a.typeName := by
    funext d a
    cases a <;> rfl
  rw [addAll, hone, List.foldl_map]

theorem Sound.addAll (h : d.Sound) (additions : List Addition) : (d.addAll additions).Sound := by
  rw [addAll_eq]
  exact h.foldl_add _

/-- Additions come to the same if they are the same apart from order and repetition. -/
theorem Sound.addAll_congr (h : d.Sound) {additions others : List Addition}
    (hsame : ∀ a, a ∈ additions ↔ a ∈ others) : d.addAll additions = d.addAll others := by
  have hnames : ∀ n, n ∈ additions.map Addition.typeName ↔ n ∈ others.map Addition.typeName := by
    intro n
    simp only [List.mem_map, hsame]
  apply (h.addAll additions).ext (h.addAll others)
  · rw [addAll_eq, addAll_eq, owner_foldl_add, owner_foldl_add]
  · intro x
    rw [addAll_eq, addAll_eq, mem_system_foldl_add, mem_system_foldl_add, hnames]
  · intro x
    rw [addAll_eq, addAll_eq, mem_user_foldl_add, mem_user_foldl_add, hnames]

/-! ## Moves on two sets of dependencies -/

/-- What is done to one of two sets of dependencies. -/
inductive Move where
  /-- A name is added. -/
  | add (addition : Addition)
  /-- The other set is merged into it. -/
  | merge
  deriving DecidableEq, Repr

/-- Make a move on the first of two sets. -/
def move (d other : Dependencies) : Move → Dependencies
  | .add addition => d.addOne addition
  | .merge => d.merge other

/-- One of two sets. -/
inductive Side where
  | left
  | right
  deriving DecidableEq, Repr

/-- Make a move on one of two sets. -/
def movePair (pair : Dependencies × Dependencies) : Side × Move → Dependencies × Dependencies
  | (.left, m) => (pair.1.move pair.2 m, pair.2)
  | (.right, m) => (pair.1, pair.2.move pair.1 m)

/-- The two sets after a sequence of moves. -/
def afterMoves (pair : Dependencies × Dependencies) (moves : List (Side × Move)) :
    Dependencies × Dependencies :=
  moves.foldl movePair pair

@[simp] theorem owner_move (d other : Dependencies) (m : Move) :
    (d.move other m).owner = d.owner := by
  cases m with
  | add addition => cases addition <;> simp [move, addOne]
  | merge => exact owner_merge d other

/-- A move keeps the invariant. -/
theorem Sound.move (h : d.Sound) (other : Dependencies) (m : Move) : (d.move other m).Sound := by
  cases m with
  | add addition => exact h.addAll [addition]
  | merge => exact h.merge other

/-- Dependencies that can be collected: an owner has none at first, names are added one at a time,
and others that can be collected are merged into them. -/
inductive Collected : Dependencies → Prop where
  | new (owner : String) : Collected (new owner)
  | move {d other : Dependencies} (hd : Collected d) (hother : Collected other) (m : Move) :
      Collected (d.move other m)

/-- Dependencies meet the invariant however they have been collected. -/
theorem Collected.sound (h : d.Collected) : d.Sound := by
  induction h with
  | new owner => exact sound_new owner
  | @move d other _ _ m ih _ => exact ih.move other m

theorem Collected.addAll (h : d.Collected) (additions : List Addition) :
    (d.addAll additions).Collected := by
  induction additions generalizing d with
  | nil => exact h
  | cons first rest ih => exact ih (h.move h (.add first))

/-- After any moves both sets have their owners and meet the invariant. -/
theorem sound_afterMoves {pair : Dependencies × Dependencies} (h₁ : pair.1.Sound)
    (h₂ : pair.2.Sound) (moves : List (Side × Move)) :
    ((afterMoves pair moves).1.owner = pair.1.owner ∧ (afterMoves pair moves).1.Sound) ∧
      (afterMoves pair moves).2.owner = pair.2.owner ∧ (afterMoves pair moves).2.Sound := by
  induction moves generalizing pair with
  | nil => exact ⟨⟨rfl, h₁⟩, rfl, h₂⟩
  | cons first rest ih =>
      obtain ⟨side, m⟩ := first
      cases side with
      | left =>
          obtain ⟨⟨howner, hsound⟩, hother⟩ :=
            @ih (movePair pair (.left, m)) (h₁.move _ m) h₂
          exact ⟨⟨howner.trans (owner_move _ _ m), hsound⟩, hother⟩
      | right =>
          obtain ⟨hother, howner, hsound⟩ :=
            @ih (movePair pair (.right, m)) h₁ (h₂.move _ m)
          exact ⟨hother, howner.trans (owner_move _ _ m), hsound⟩

/-- After any sequence of additions and merges on two sets of dependencies, however these have been
collected, both have their owners and meet the invariant.  Merging unites the names of both sets
without the name of the owner that is kept, and merging the same set again changes nothing.
Dependencies that are collected for an owner by the same additions are equal, whatever the order
and the repetition of these. -/
theorem moves_spec (hd : d.Collected) (he : e.Collected) :
    (∀ moves, ((afterMoves (d, e) moves).1.owner = d.owner ∧ (afterMoves (d, e) moves).1.Sound) ∧
        (afterMoves (d, e) moves).2.owner = e.owner ∧ (afterMoves (d, e) moves).2.Sound) ∧
      ((∀ x, x ∈ (d.merge e).system.toList ↔ x ∈ d.system.toList ∨ x ∈ e.system.toList) ∧
        (∀ x, x ∈ (d.merge e).user.toList ↔
          (x ∈ d.user.toList ∨ x ∈ e.user.toList) ∧ x ≠ d.owner) ∧
        (d.merge e).merge e = d.merge e) ∧
      ∀ owner additions others, (∀ a : Addition, a ∈ additions ↔ a ∈ others) →
        (new owner).addAll additions = (new owner).addAll others :=
  ⟨@sound_afterMoves (d, e) hd.sound he.sound,
    ⟨fun _ => he.sound.mem_system_merge, fun _ => hd.sound.mem_user_merge he.sound,
      hd.sound.merge_merge he.sound⟩,
    fun owner _ _ hsame => (sound_new owner).addAll_congr hsame⟩

/-- The dependencies of a request on its user, with a name that is too many. -/
def requestNeeds : Dependencies :=
  (new "UserRequest").addAll [.user "User", .system "std::future", .user "UserRequest"]

/-- The dependencies of a user on its address and its request. -/
def userNeeds : Dependencies :=
  (new "User").addAll [.system "std::any", .user "UserRequest", .resolved (.user "Address")]

theorem requestNeeds_moves :
    requestNeeds.Collected ∧ userNeeds.Collected ∧
      (afterMoves (requestNeeds, userNeeds)
        [(.right, .merge), (.left, .add (.user "UserRequest")), (.left, .merge)]).1.Sound ∧
      (requestNeeds.merge userNeeds).user.toList = ["Address", "User"] ∧
      (requestNeeds.merge userNeeds).merge userNeeds = requestNeeds.merge userNeeds ∧
      (new "User").addAll [.user "Address", .system "std::any", .user "Address"] =
        (new "User").addAll [.system "std::any", .user "Address"] := by
  have hrequest : requestNeeds.Collected := (Collected.new _).addAll _
  have huser : userNeeds.Collected := (Collected.new _).addAll _
  obtain ⟨hmoves, ⟨-, -, hagain⟩, horder⟩ := moves_spec hrequest huser
  refine ⟨hrequest, huser, (hmoves _).1.2, by decide +kernel, hagain, horder _ _ _ ?_⟩
  simp

end Dependencies

end SdkHeaders
