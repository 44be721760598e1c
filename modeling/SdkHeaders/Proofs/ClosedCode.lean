import SdkHeaders.Proofs.BraceNesting
import SdkHeaders.Proofs.Mentions

/-!
# Closed code of headers

Declarations and functions are closed pieces of code: what is put around names opens and closes
braces in pairs.  This needs nothing but that the names and the other words that the code is spelled
with hold no braces themselves.

Main results:

- Definitions `Header.Declaration.words` and `Header.FreeFunction.words` list the words that are
  spelled in code besides the names of types.
- Theorems `Header.Declaration.closed_layout` and `Header.FreeFunction.closed_layout`: code that is
  spelled with words without braces is closed.
- Theorem `Entity.balanced_fileText`: the braces of a header are balanced if it is spelled with such
  words and includes headers with such names.
-/

namespace SdkHeaders

open Header Text

/-- The spelling of a type holds no braces if its names do not. -/
theorem TypeExpr.braceFree_text {t : TypeExpr} (h : ∀ n ∈ t.names, BraceFree n.text) :
    BraceFree t.text := by
  induction t with
  | plain name => exact h name (List.mem_singleton_self name)
  | applied template argument ih =>
      rw [names, List.forall_mem_cons] at h
      have hopen := h.1.append (t := "<") (.ofList rfl)
      exact (hopen.append (ih h.2)).append (.ofList rfl)

namespace Header

/-! ## Signatures -/

/-- The words that a parameter is spelled with. -/
def Parameter.words (p : Parameter) : List String :=
  p.name :: p.default?.toList

/-- The words that a signature is spelled with. -/
def Signature.words (s : Signature) : List String :=
  s.name :: s.parameters.flatMap Parameter.words

theorem Parameter.braceFree_text {p : Parameter} (hwords : ∀ w ∈ p.words, BraceFree w)
    (hnames : ∀ n ∈ p.type.names, BraceFree n.text) : BraceFree p.text := by
  obtain ⟨type, passing, name, default?⟩ := p
  obtain ⟨hname, hdefault⟩ := List.forall_mem_cons.mp hwords
  have htype := TypeExpr.braceFree_text hnames
  have hdeclared : BraceFree (text ⟨type, passing, name, none⟩) := by
    cases passing with
    | value => exact (htype.append (.ofList rfl)).append hname
    | reference => exact (htype.append (.ofList rfl)).append hname
    | constReference =>
        have hconst := FreeOf.append (s := "const ") (.ofList rfl) htype
        exact (hconst.append (.ofList rfl)).append hname
  cases default? with
  | none => exact hdeclared
  | some default =>
      have hvalue := hdefault default (List.mem_singleton_self default)
      exact (hdeclared.append (.ofList rfl)).append hvalue

theorem braceFree_parameterText {ps : List Parameter}
    (hwords : ∀ w ∈ ps.flatMap Parameter.words, BraceFree w)
    (hnames : ∀ n ∈ ps.flatMap fun p => p.type.names, BraceFree n.text) :
    BraceFree (parameterText ps) := by
  have hlist : BraceFree (", ".intercalate (ps.map Parameter.text)) := by
    refine FreeOf.intercalate (.ofList rfl) fun part hpart => ?_
    obtain ⟨p, hp, rfl⟩ := List.mem_map.mp hpart
    exact p.braceFree_text (fun w hw => hwords w (List.mem_flatMap_of_mem hp hw))
      fun n hn => hnames n (List.mem_flatMap_of_mem hp hn)
  exact hlist.enclosed rfl rfl

theorem Signature.braceFree_text {s : Signature} (hwords : ∀ w ∈ s.words, BraceFree w)
    (hnames : ∀ n ∈ s.names, BraceFree n.text) : BraceFree s.text := by
  obtain ⟨hname, hparameterWords⟩ := List.forall_mem_cons.mp hwords
  obtain ⟨hresult, hparameterNames⟩ := List.forall_mem_append.mp hnames
  have hparameters := braceFree_parameterText hparameterWords hparameterNames
  have hstart := (TypeExpr.braceFree_text hresult).append (t := " ") (.ofList rfl)
  exact ((hstart.append hname).append hparameters).append (.ofList rfl)

/-! ## Statements and calls -/

/-- The word that ends a path. -/
def Segment.word : Segment → String
  | fixed s => s
  | parameter name => name

/-- The words that a statement is spelled with. -/
def Statement.words : Statement → List String
  | httpMethod verb => [verb]
  | takeBaseUrl => []
  | extendUrl segment => [segment.word]
  | takeClient _ => []
  | returnNew _ url => [url]
  | sendInto result _ arguments => result :: arguments
  | send _ arguments => arguments
  | giveBack result => [result]
  | blank => []

/-- The words that a method is spelled with. -/
def Method.words (m : Method) : List String :=
  m.signature.words ++ m.body.flatMap Statement.words

theorem braceFree_wide {s : String} (h : BraceFree s) : BraceFree (Literal.wide s) :=
  h.enclosed rfl rfl

theorem Statement.braceFree_sending {type : TypeExpr} {arguments : List String}
    (hnames : ∀ n ∈ type.names, BraceFree n.text) (harguments : ∀ w ∈ arguments, BraceFree w) :
    BraceFree (sending type arguments) := by
  have hlist : BraceFree (", ".intercalate arguments) :=
    FreeOf.intercalate (.ofList rfl) harguments
  have hcall := FreeOf.append (s := "co_await SendAsync<") (.ofList rfl)
    (TypeExpr.braceFree_text hnames)
  exact ((hcall.append (.ofList rfl)).append hlist).append (.ofList rfl)

/-- A statement that is spelled with words without braces is closed. -/
theorem Statement.closed_layout {s : Statement} (hwords : ∀ w ∈ s.words, BraceFree w)
    (hnames : ∀ n ∈ s.names, BraceFree n.text) : s.layout.Closed := by
  cases s with
  | httpMethod verb =>
      have hverb := hwords verb (List.mem_singleton_self verb)
      exact .paired (braces_pair (braces_ofList _) hverb (braces_ofList _))
  | takeBaseUrl => exact .paired (braces_ofList _)
  | extendUrl segment =>
      have hsegment : BraceFree segment.text := by
        have hword := hwords segment.word (List.mem_singleton_self _)
        cases segment with
        | fixed s => exact braceFree_wide hword
        | parameter name => exact hword
      exact .paired (braces_pair (braces_ofList _) hsegment (braces_ofList _))
  | takeClient transport =>
      have htransport : BraceFree transport.text := by
        cases transport with
        | held => exact .ofList rfl
        | self => exact .ofList rfl
      exact .paired (braces_pair (braces_ofList _) htransport (braces_ofList _))
  | returnNew type url =>
      have hurl := hwords url (List.mem_singleton_self url)
      have htype := TypeExpr.braceFree_text (List.forall_mem_cons.mp hnames).2
      have hcall := FreeOf.append (s := "return std::make_unique<") (.ofList rfl) htype
      exact .plain (((hcall.append (.ofList rfl)).append hurl).append (.ofList rfl))
  | sendInto result type arguments =>
      obtain ⟨hresult, harguments⟩ := List.forall_mem_cons.mp hwords
      have hconst := FreeOf.append (s := "const ") (.ofList rfl) (TypeExpr.braceFree_text hnames)
      have hdeclared := (hconst.append (t := " ") (.ofList rfl)).append hresult
      have hbefore : braces ("const " ++ type.text ++ " " ++ result ++ "\x7b ") = ['\x7b'] := by
        rw [braces_append, BraceFree.braces_eq hdeclared]
        exact braces_ofList _
      exact .paired
        (braces_pair hbefore (braceFree_sending hnames harguments) (braces_ofList _))
  | send type arguments =>
      exact .plain ((braceFree_sending hnames hwords).append (.ofList rfl))
  | giveBack result =>
      have hresult := hwords result (List.mem_singleton_self result)
      exact .plain (hresult.enclosed rfl rfl)
  | blank => exact .blank

/-- The word that is handed to the constructor of a base. -/
def Argument.word : Argument → String
  | given name => name
  | moved name => name
  | literal s => s

/-- The words that an initializer is spelled with. -/
def Initializer.words (i : Initializer) : List String :=
  i.arguments.map Argument.word

theorem Argument.braceFree_text {a : Argument} (h : BraceFree a.word) : BraceFree a.text := by
  cases a with
  | given name => exact h
  | moved name => exact h.enclosed rfl rfl
  | literal s => exact braceFree_wide (FreeOf.escape (by decide) h)

/-- An initializer opens and closes one pair of braces. -/
theorem Initializer.braces_text {i : Initializer} (hwords : ∀ w ∈ i.words, BraceFree w)
    (hnames : ∀ n ∈ i.names, BraceFree n.text) : braces i.text = ['\x7b', '\x7d'] := by
  have hbase := TypeExpr.braceFree_text (List.forall_mem_append.mp hnames).1
  have hlist : BraceFree (", ".intercalate (i.arguments.map Argument.text)) := by
    refine FreeOf.intercalate (.ofList rfl) fun part hpart => ?_
    obtain ⟨a, ha, rfl⟩ := List.mem_map.mp hpart
    exact Argument.braceFree_text (hwords _ (List.mem_map_of_mem ha))
  have hbefore : braces (i.base.text ++ "\x7b ") = ['\x7b'] := by
    rw [braces_append, hbase.braces_eq]
    exact braces_ofList _
  exact braces_pair hbefore hlist (braces_ofList _)

/-! ## Declarations -/

/-- The words that a member is spelled with. -/
def Member.words : Member → List String
  | field summary _ name => [summary, name]
  | enumerators entries => entries.map Prod.fst
  | virtualDestructor name => [name]
  | prototypes signatures => signatures.flatMap Signature.words
  | constructor name parameters initializer =>
      name :: (parameters.flatMap Parameter.words ++ initializer.words)
  | destructor name => [name]
  | method m => m.words

/-- The words that a declaration is spelled with. -/
def Declaration.words (d : Declaration) : List String :=
  d.summary :: d.name :: d.members.flatMap Member.words

theorem closed_summaryLines {s : String} (h : BraceFree s) :
    ∀ piece ∈ summaryLines s, piece.Closed := by
  simp only [summaryLines, List.forall_mem_cons]
  exact ⟨.plain (.ofList rfl), .plain (.append (.ofList rfl) h), .plain (.ofList rfl),
    List.forall_mem_nil _⟩

theorem Member.braceFree_enumeratorText {entry : String × Option Int} (h : BraceFree entry.1) :
    BraceFree (enumeratorText entry) := by
  obtain ⟨name, value⟩ := entry
  cases value with
  | none => exact h
  | some value =>
      exact (FreeOf.append h (.ofList rfl)).append (.toString_int rfl (by decide) value)

theorem Member.closed_enumeratorLines {entries : List (String × Option Int)}
    (h : ∀ entry ∈ entries, BraceFree entry.1) :
    ∀ piece ∈ enumeratorLines entries, piece.Closed := by
  fun_induction enumeratorLines entries with
  | case1 => exact List.forall_mem_nil _
  | case2 last =>
      have hlast := braceFree_enumeratorText (h last List.mem_cons_self)
      exact List.forall_mem_singleton.mpr (.plain hlast)
  | case3 entry rest _ ih =>
      obtain ⟨hentry, hrest⟩ := List.forall_mem_cons.mp h
      have hline := (braceFree_enumeratorText hentry).append (t := ",") (.ofList rfl)
      exact List.forall_mem_cons.mpr ⟨.plain hline, ih hrest⟩

/-- A member that is spelled with words without braces is closed. -/
theorem Member.closed_layout {m : Member} (hwords : ∀ w ∈ m.words, BraceFree w)
    (hnames : ∀ n ∈ m.names, BraceFree n.text) : ∀ piece ∈ m.layout, piece.Closed := by
  cases m with
  | field summary type name =>
      simp only [words, List.forall_mem_cons] at hwords
      have htype := (TypeExpr.braceFree_text hnames).append (t := " ") (.ofList rfl)
      have hline := (htype.append hwords.2.1).append (t := ";") (.ofList rfl)
      exact List.forall_mem_append.mpr
        ⟨closed_summaryLines hwords.1, List.forall_mem_singleton.mpr (.plain hline)⟩
  | enumerators entries =>
      exact closed_enumeratorLines fun entry hentry => hwords _ (List.mem_map_of_mem hentry)
  | virtualDestructor name =>
      have hname := hwords name (List.mem_singleton_self name)
      exact List.forall_mem_singleton.mpr (.plain (hname.enclosed rfl rfl))
  | prototypes signatures =>
      intro piece hpiece
      obtain ⟨s, hs, rfl⟩ := List.mem_map.mp hpiece
      have htext : BraceFree s.text :=
        s.braceFree_text (fun w hw => hwords w (List.mem_flatMap_of_mem hs hw))
          fun n hn => hnames n (List.mem_flatMap_of_mem hs hn)
      exact .plain (htext.enclosed rfl rfl)
  | constructor name parameters initializer =>
      obtain ⟨hname, hrest⟩ := List.forall_mem_cons.mp hwords
      obtain ⟨hparameters, hinitializer⟩ := List.forall_mem_append.mp hrest
      obtain ⟨htypes, hbase⟩ := List.forall_mem_append.mp hnames
      have hexplicit := FreeOf.append (s := "explicit ") (.ofList rfl) hname
      have hsignature := hexplicit.append (braceFree_parameterText hparameters htypes)
      have hcall : braces (": " ++ initializer.text) = ['\x7b', '\x7d'] := by
        rw [braces_append, initializer.braces_text hinitializer hbase]
        exact congrArg (· ++ _) (braces_ofList _)
      simp only [layout, List.forall_mem_cons]
      refine ⟨.plain (hsignature.append (.ofList rfl)), ?_, ?_, List.forall_mem_nil _⟩
      · exact .continuation (hcall ▸ balanced_pair)
      · exact Layout.closed_braced_iff.mpr (List.forall_mem_nil _)
  | destructor name =>
      have hname := hwords name (List.mem_singleton_self name)
      simp only [layout, List.forall_mem_cons]
      exact ⟨.plain (hname.enclosed rfl rfl), Layout.closed_braced_iff.mpr (List.forall_mem_nil _),
        List.forall_mem_nil _⟩
  | method m =>
      obtain ⟨hsignature, hbody⟩ := List.forall_mem_append.mp hwords
      obtain ⟨htypes, hmentioned⟩ := List.forall_mem_append.mp hnames
      have htext := m.signature.braceFree_text hsignature htypes
      simp only [layout, List.forall_mem_cons]
      refine ⟨.plain (htext.append (.ofList rfl)), ?_, List.forall_mem_nil _⟩
      refine Layout.closed_braced_iff.mpr fun piece hpiece => ?_
      obtain ⟨s, hs, rfl⟩ := List.mem_map.mp hpiece
      exact s.closed_layout (fun w hw => hbody w (List.mem_flatMap_of_mem hs hw))
        fun n hn => hmentioned n (List.mem_flatMap_of_mem hs hn)

theorem Declaration.braceFree_signature {d : Declaration} (hname : BraceFree d.name)
    (hnames : ∀ n ∈ d.form.names, BraceFree n.text) : BraceFree d.signature := by
  unfold signature
  split
  · exact hname.enclosed rfl rfl
  · exact FreeOf.append (.ofList rfl) hname
  · exact FreeOf.append (.ofList rfl) hname
  · next underlying hform =>
      rw [hform] at hnames
      have hstart := FreeOf.append (s := "enum class ") (.ofList rfl) hname
      exact (hstart.append (.ofList rfl)).append (TypeExpr.braceFree_text hnames)

theorem Declaration.closed_baseClause {d : Declaration}
    (hnames : ∀ n ∈ d.bases.toList.flatMap TypeExpr.names, BraceFree n.text) :
    ∀ piece ∈ d.baseClause, piece.Closed := by
  have hlist : BraceFree (d.bases.join "public " ", ") := by
    refine FreeOf.intercalate (.ofList rfl) fun part hpart => ?_
    obtain ⟨base, hbase, rfl⟩ := List.mem_map.mp hpart
    exact .append (.ofList rfl)
      (base.braceFree_text fun n hn => hnames n (List.mem_flatMap_of_mem hbase hn))
  have hline : BraceFree (": " ++ d.bases.join "public " ", ") := .append (.ofList rfl) hlist
  unfold baseClause
  split
  · exact List.forall_mem_nil _
  · exact List.forall_mem_singleton.mpr (.continuation (hline.braces_eq ▸ balanced_nil))

/-- A declaration that is spelled with words without braces is closed. -/
theorem Declaration.closed_layout {d : Declaration} {indent : String}
    (hindent : BraceFree indent) (hwords : ∀ w ∈ d.words, BraceFree w)
    (hnames : ∀ n ∈ d.mentions, BraceFree n.text) : ∀ piece ∈ d.layout indent, piece.Closed := by
  simp only [words, List.forall_mem_cons] at hwords
  simp only [mentions, names, List.forall_mem_append] at hnames
  obtain ⟨hsummary, hname, hmemberWords⟩ := hwords
  obtain ⟨hform, hbases, hmemberNames⟩ := hnames
  have hlabel : ∀ piece ∈ d.accessLabel, piece.Closed := by
    unfold accessLabel
    split
    · exact List.forall_mem_singleton.mpr (.label (braces_ofList _ ▸ balanced_nil))
    · exact List.forall_mem_nil _
  have hmembers : ∀ piece ∈ d.memberLayout indent, piece.Closed := by
    refine Layout.forall_mem_spaced_closed fun group hgroup => ?_
    obtain ⟨m, hm, rfl⟩ := List.mem_map.mp hgroup
    refine List.forall_mem_singleton.mpr (.text (Layout.balanced_render hindent.braces_eq ?_))
    exact m.closed_layout (fun w hw => hmemberWords w (List.mem_flatMap_of_mem hm hw))
      fun n hn => hmemberNames n (List.mem_flatMap_of_mem hm hn)
  simp only [layout, headLayout, List.forall_mem_append, List.forall_mem_cons]
  refine ⟨⟨closed_summaryLines hsummary, .plain (braceFree_signature hname hform),
    closed_baseClause hbases⟩, ?_, List.forall_mem_nil _⟩
  exact .scope (braces_ofList _) (List.forall_mem_append.mpr ⟨hlabel, hmembers⟩)

/-! ## Functions -/

/-- The words that a reading step is spelled with. -/
def ReadStep.words : ReadStep → List String
  | base type => [type.text]
  | required key member element => key :: member :: element.toList.map TypeExpr.text
  | optional key member => [key, member]

/-- The words that a function is spelled with. -/
def FreeFunction.words : FreeFunction → List String
  | readObject name steps => name :: steps.flatMap ReadStep.words
  | flagOperator name operation => [name, operation]
  | flagAssign name => [name]
  | parseEnum name arms => name :: arms.flatMap fun arm => [arm.1, arm.2]
  | readEnum name => [name]
  | readFlags name => [name]

theorem ReadStep.closed_check {call : String} (h : BraceFree call) :
    ∀ piece ∈ check call, piece.Closed := by
  have htest : BraceFree ("if (!" ++ call ++ ")") := h.enclosed rfl rfl
  simp only [check, List.forall_mem_cons, Layout.closed_braced_iff]
  exact ⟨.plain htest, ⟨.plain (.ofList rfl), List.forall_mem_nil _⟩, List.forall_mem_nil _⟩

theorem braceFree_platform {s : String} (h : BraceFree s) : BraceFree (Literal.platform s) :=
  h.enclosed rfl rfl

theorem ReadStep.braceFree_fieldCall {key member : String} {element : Option TypeExpr}
    (hkey : BraceFree key) (hmember : BraceFree member)
    (helement : ∀ type ∈ element.toList, BraceFree type.text) :
    BraceFree (fieldCall key member element) := by
  have hat := FreeOf.append (s := "(jsonValue.at(") (.ofList rfl) (braceFree_platform hkey)
  have hplace := ((hat.append (t := "), object.") (.ofList rfl)).append hmember).append
    (t := ")") (.ofList rfl)
  simp only [String.append_assoc] at hplace
  unfold fieldCall
  simp only [String.append_assoc]
  cases element with
  | none => exact .append (.ofList rfl) hplace
  | some type =>
      have hreader := FreeOf.append (s := "Deserialize<") (.ofList rfl)
        (helement type (List.mem_singleton_self type))
      simpa only [String.append_assoc] using
        (hreader.append (t := ">") (.ofList rfl)).append hplace

/-- A reading step that is spelled with words without braces is closed. -/
theorem ReadStep.closed_layout {step : ReadStep} (h : ∀ w ∈ step.words, BraceFree w) :
    ∀ piece ∈ step.layout, piece.Closed := by
  cases step with
  | base type =>
      have htype := h type.text (List.mem_singleton_self _)
      exact closed_check (htype.enclosed rfl rfl)
  | required key member element =>
      simp only [words, List.forall_mem_cons, List.forall_mem_map] at h
      exact closed_check (braceFree_fieldCall h.1 h.2.1 h.2.2)
  | optional key member =>
      simp only [words, List.forall_mem_cons] at h
      have htest := FreeOf.append (s := "if (jsonValue.has_field(") (.ofList rfl)
        (braceFree_platform h.1)
      simp only [layout, List.forall_mem_cons, Layout.closed_braced_iff]
      exact ⟨.plain (htest.append (.ofList rfl)),
        closed_check (braceFree_fieldCall h.1 h.2.1 (List.forall_mem_nil _)), List.forall_mem_nil _⟩

namespace FreeFunction

theorem braceFree_readSignature {name : String} (h : BraceFree name) :
    BraceFree (readSignature name) :=
  h.enclosed rfl rfl

theorem braceFree_asNumber {name operand : String} (hname : BraceFree name)
    (hoperand : BraceFree operand) : BraceFree (asNumber name operand) := by
  have hcast := FreeOf.append (s := "static_cast<std::underlying_type_t<") (.ofList rfl) hname
  exact ((hcast.append (.ofList rfl)).append hoperand).append (.ofList rfl)

theorem braceFree_combined {name operation : String} (hname : BraceFree name)
    (hoperation : BraceFree operation) : BraceFree (combined name operation) := by
  have hleft : BraceFree (asNumber name "lhs") := braceFree_asNumber hname (.ofList rfl)
  have hright : BraceFree (asNumber name "rhs") := braceFree_asNumber hname (.ofList rfl)
  have hcast := FreeOf.append (s := "static_cast<") (.ofList rfl) hname
  have hoperands := ((hcast.append (t := ">(") (.ofList rfl)).append hleft).append (t := " ")
    (.ofList rfl)
  exact (((hoperands.append hoperation).append (.ofList rfl)).append hright).append (.ofList rfl)

theorem closed_armLayout {name keyword : String} {arm : String × String}
    (hname : BraceFree name) (hkeyword : BraceFree keyword)
    (harm : BraceFree arm.1 ∧ BraceFree arm.2) :
    ∀ piece ∈ armLayout name keyword arm, piece.Closed := by
  have htest := (hkeyword.append (t := " (trimmedValue == ") (.ofList rfl)).append
    (braceFree_wide harm.2)
  have hfound := ((FreeOf.append (s := "object = ") (.ofList rfl) hname).append (t := "::")
    (.ofList rfl)).append harm.1
  simp only [armLayout, List.forall_mem_cons, Layout.closed_braced_iff]
  exact ⟨.plain (htest.append (.ofList rfl)),
    ⟨.plain (hfound.append (.ofList rfl)), .blank, .plain (.ofList rfl),
      List.forall_mem_nil _⟩, List.forall_mem_nil _⟩

theorem closed_armsLayout {name : String} {arms : List (String × String)}
    (hname : BraceFree name) (harms : ∀ arm ∈ arms, BraceFree arm.1 ∧ BraceFree arm.2) :
    ∀ piece ∈ armsLayout name arms, piece.Closed := by
  cases arms with
  | nil => exact List.forall_mem_nil _
  | cons first rest =>
      obtain ⟨hfirst, hrest⟩ := List.forall_mem_cons.mp harms
      simp only [armsLayout, List.forall_mem_append, List.forall_mem_cons]
      refine ⟨⟨⟨⟨.paired (braces_ofList _), .blank, List.forall_mem_nil _⟩, ?_⟩, ?_⟩, .blank,
        List.forall_mem_nil _⟩
      · exact closed_armLayout hname (.ofList rfl) hfirst
      · intro piece hpiece
        obtain ⟨arm, harm, hpiece⟩ := List.mem_flatMap.mp hpiece
        exact closed_armLayout hname (.ofList rfl) (hrest arm harm) piece hpiece

/-- The signature of a function that is spelled with words without braces holds no braces. -/
theorem braceFree_signature {f : FreeFunction} (h : ∀ w ∈ f.words, BraceFree w) :
    BraceFree f.parts.1 := by
  cases f with
  | readObject name steps => exact braceFree_readSignature (List.forall_mem_cons.mp h).1
  | flagOperator name operation =>
      simp only [words, List.forall_mem_cons] at h
      obtain ⟨hname, hoperation, -⟩ := h
      have hresult := FreeOf.append (s := "inline ") (.ofList rfl) hname
      have hoperator := (hresult.append (t := " operator") (.ofList rfl)).append hoperation
      have hleft := (hoperator.append (t := "(const ") (.ofList rfl)).append hname
      have hright := (hleft.append (t := " lhs, const ") (.ofList rfl)).append hname
      exact hright.append (.ofList rfl)
  | flagAssign name =>
      have hname := h name (List.mem_singleton_self name)
      have hresult := FreeOf.append (s := "inline ") (.ofList rfl) hname
      have hleft := (hresult.append (t := "& operator|=(") (.ofList rfl)).append hname
      have hright := (hleft.append (t := "& lhs, const ") (.ofList rfl)).append hname
      exact hright.append (.ofList rfl)
  | parseEnum name arms =>
      have hsignature := FreeOf.append
        (s := "inline bool ParseEnumValue(const std::wstring_view value, ") (.ofList rfl)
        (List.forall_mem_cons.mp h).1
      exact hsignature.append (.ofList rfl)
  | readEnum name => exact braceFree_readSignature (h name (List.mem_singleton_self name))
  | readFlags name => exact braceFree_readSignature (h name (List.mem_singleton_self name))

/-- The steps of a function that reads an object are closed. -/
theorem closed_stepsLayout {steps : List ReadStep}
    (h : ∀ w ∈ steps.flatMap ReadStep.words, BraceFree w) :
    ∀ piece ∈ steps.flatMap fun step => step.layout ++ [.blank], piece.Closed := by
  intro piece hpiece
  obtain ⟨step, hstep, hpiece⟩ := List.mem_flatMap.mp hpiece
  rcases List.mem_append.mp hpiece with hpiece | hpiece
  · exact step.closed_layout (fun w hw => h w (List.mem_flatMap_of_mem hstep hw)) piece hpiece
  · exact List.mem_singleton.mp hpiece ▸ .blank

/-- The body of a function that is spelled with words without braces is closed. -/
theorem closed_body {f : FreeFunction} (h : ∀ w ∈ f.words, BraceFree w) :
    ∀ piece ∈ f.parts.2, piece.Closed := by
  cases f with
  | readObject name steps =>
      obtain ⟨-, hsteps⟩ := List.forall_mem_cons.mp h
      refine List.forall_mem_append.mpr ⟨closed_stepsLayout hsteps, ?_⟩
      exact List.forall_mem_singleton.mpr (.plain (.ofList rfl))
  | flagOperator name operation =>
      simp only [words, List.forall_mem_cons] at h
      have hreturn := FreeOf.append (s := "return ") (.ofList rfl) (braceFree_combined h.1 h.2.1)
      exact List.forall_mem_singleton.mpr (.plain (hreturn.append (.ofList rfl)))
  | flagAssign name =>
      have hname := h name (List.mem_singleton_self name)
      have hcombined : BraceFree (combined name "|") := braceFree_combined hname (.ofList rfl)
      have hassign : BraceFree ("lhs = " ++ combined name "|" ++ ";") :=
        hcombined.enclosed rfl rfl
      refine List.forall_mem_cons.mpr ⟨.plain hassign, List.forall_mem_cons.mpr ⟨.blank, ?_⟩⟩
      exact List.forall_mem_singleton.mpr (.plain (.ofList rfl))
  | parseEnum name arms =>
      obtain ⟨hname, harms⟩ := List.forall_mem_cons.mp h
      have hsearch := closed_armsLayout hname fun arm harm =>
        ⟨harms _ (List.mem_flatMap_of_mem harm List.mem_cons_self),
          harms _ (List.mem_flatMap_of_mem harm (List.mem_cons_of_mem _ List.mem_cons_self))⟩
      refine List.forall_mem_append.mpr ⟨hsearch, ?_⟩
      exact List.forall_mem_singleton.mpr (.plain (.ofList rfl))
  | readEnum name =>
      refine List.forall_mem_cons.mpr
        ⟨.paired (braces_ofList _), List.forall_mem_cons.mpr ⟨.blank, ?_⟩⟩
      exact List.forall_mem_singleton.mpr (.plain (.ofList rfl))
  | readFlags name =>
      have hname := h name (List.mem_singleton_self name)
      have hzero : BraceFree ("object = static_cast<" ++ name ++ ">(0);") :=
        hname.enclosed rfl rfl
      have hobject : braces (name ++ " enumObject\x7b static_cast<") = ['\x7b'] := by
        rw [braces_append, hname.braces_eq]
        exact braces_ofList _
      refine List.forall_mem_cons.mpr ⟨.plain hzero, ?_⟩
      simp only [List.forall_mem_cons, Layout.closed_braced_iff]
      refine ⟨.blank, .paired (braces_ofList _), .blank, .plain (.ofList rfl),
        ⟨?_, .blank, .plain (.ofList rfl), ⟨.plain (.ofList rfl), List.forall_mem_nil _⟩, .blank,
          .plain (.ofList rfl), List.forall_mem_nil _⟩,
        .blank, .plain (.ofList rfl), List.forall_mem_nil _⟩
      exact .paired (braces_pair hobject hname (braces_ofList _))

/-- A function that is spelled with words without braces is closed. -/
theorem closed_layout {f : FreeFunction} (h : ∀ w ∈ f.words, BraceFree w) :
    ∀ piece ∈ f.layout, piece.Closed := by
  simp only [layout, List.forall_mem_cons, Layout.closed_braced_iff]
  exact ⟨.plain (braceFree_signature h), closed_body h, List.forall_mem_nil _⟩

end FreeFunction

end Header

/-! ## Headers -/

/-- Include lines hold no braces if the names of the headers do not. -/
theorem IncludeBlock.braceFree_render {block : IncludeBlock}
    (hsystem : ∀ header ∈ block.system.toList, BraceFree header)
    (huser : ∀ header ∈ block.user.toList, BraceFree header) : BraceFree block.render := by
  have hgroups : ∀ group ∈ block.groups, ∀ line ∈ group, BraceFree line := by
    intro group hgroup line hline
    have hmem := (List.mem_filter.mp hgroup).1
    simp only [List.mem_cons, List.not_mem_nil, or_false] at hmem
    rcases hmem with rfl | rfl
    · obtain ⟨header, hheader, rfl⟩ := List.mem_map.mp hline
      exact (hsystem header hheader).enclosed rfl rfl
    · obtain ⟨header, hheader, rfl⟩ := List.mem_map.mp hline
      exact (huser header hheader).enclosed rfl rfl
  unfold render
  split
  · exact .ofList rfl
  · refine FreeOf.append (FreeOf.intercalate (.ofList rfl) fun part hpart => ?_) (.ofList rfl)
    obtain ⟨group, hgroup, rfl⟩ := List.mem_map.mp hpart
    exact FreeOf.intercalate (.ofList rfl) (hgroups group hgroup)

namespace Entity

/-- The words that a header is spelled with. -/
def words (e : Entity) : List String :=
  e.declaration.words ++ e.functions.flatMap FreeFunction.words

/-- The braces of a header are balanced if neither the words and types that it is spelled with nor
the headers that it includes hold braces. -/
theorem balanced_fileText {target : Target} {space : String} {e : Entity}
    (hindent : BraceFree target.indent) (hspace : BraceFree space)
    (hsystem : ∀ header ∈ (e.includes target).system.toList, BraceFree header)
    (huser : ∀ header ∈ (e.includes target).user.toList, BraceFree header)
    (hwords : ∀ w ∈ e.words, BraceFree w)
    (hnames : ∀ n ∈ e.declaration.mentions, BraceFree n.text) :
    Balanced (e.fileText target space).toList := by
  obtain ⟨hdeclarationWords, hfunctionWords⟩ := List.forall_mem_append.mp hwords
  have hincludes : ∀ piece ∈ includeLayout (e.includes target), piece.Closed := by
    unfold includeLayout
    split
    · exact List.forall_mem_nil _
    · have hblock := IncludeBlock.braceFree_render hsystem huser
      simp only [List.forall_mem_cons, Layout.closed_text_iff, hblock.braces_eq]
      exact ⟨balanced_nil, .blank, List.forall_mem_nil _⟩
  have hdeclaration : Layout.Closed (.text (e.declarationText target)) :=
    .text (Layout.balanced_render hindent.braces_eq
      (e.declaration.closed_layout hindent hdeclarationWords hnames))
  have hfunctions : ∀ piece ∈ (e.functionTexts target).flatMap fun f => [.blank, .text f],
      Layout.Closed piece := by
    intro piece hpiece
    obtain ⟨t, ht, hpiece⟩ := List.mem_flatMap.mp hpiece
    obtain ⟨f, hf, rfl⟩ := List.mem_map.mp ht
    have hclosed := f.closed_layout fun w hw => hfunctionWords w (List.mem_flatMap_of_mem hf hw)
    simp only [List.mem_cons, List.not_mem_nil, or_false] at hpiece
    rcases hpiece with rfl | rfl
    · exact .blank
    · exact .text (Layout.balanced_render hindent.braces_eq hclosed)
  have hfile : ∀ piece ∈ e.fileLayout target space, piece.Closed := by
    simp only [fileLayout, List.forall_mem_append, List.forall_mem_cons,
      Layout.closed_braced_iff]
    exact ⟨⟨⟨.plain (.ofList rfl), .blank, List.forall_mem_nil _⟩, hincludes⟩,
      .plain (.append (.ofList rfl) hspace), ⟨hdeclaration, hfunctions⟩, List.forall_mem_nil _⟩
  exact balanced_filter_iff.mp (Layout.balanced_render hindent.braces_eq hfile)

end Entity

end SdkHeaders
