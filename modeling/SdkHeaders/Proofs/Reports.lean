import Mathlib.Algebra.BigOperators.Group.List.Basic
import Mathlib.Algebra.GroupWithZero.Nat
import SdkHeaders.CommandLine.Run
import SdkHeaders.Proofs.LayoutLines
import SdkHeaders.Proofs.Saving
import SdkHeaders.Proofs.Stages

/-!
# Reports on a model

The commands that only look at a model tell about the same entities: one checks the model and counts
its entities by their roles, one lists them, and one shows their headers.

Main results:

- Definition `Report.readRow` reads a row of a report, and theorem `Report.readRow_roleRow` says
  that rows can be read.
- Theorems `Report.mem_roleCounts_iff`, `Report.pairwise_roleCounts` and `Report.sum_roleCounts`
  say what the counts of roles are.
- Theorem `Action.reports_agree`: the commands succeed or fail together, and tell about the same
  entities in the same order.
-/

namespace SdkHeaders

open Text

/-! ## Rows -/

namespace Report

/-- The role in the column of a row, and what stands behind the column. -/
def readRow (row : String) : Option (Role × String) :=
  let column := (row.toList.take 38).reverse.dropWhile (· = ' ')
  (Role.ofText? (String.ofList column.reverse)).map fun role =>
    (role, String.ofList (row.toList.drop 39))

theorem length_text_le (role : Role) :
    role.text.toList.length ≤ 38 ∧ role.text.toList.getLast? ≠ some ' ' := by
  have hall : ∀ role ∈ Role.all,
      role.text.toList.length ≤ 38 ∧ role.text.toList.getLast? ≠ some ' ' := by decide
  exact hall role role.mem_all

/-- A row is read as the role and the text that it was made of. -/
theorem readRow_roleRow (role : Role) (s : String) : readRow (roleRow role s) = some (role, s) := by
  obtain ⟨hlength, hlast⟩ := length_text_le role
  have hrow : (roleRow role s).toList =
      role.text.toList ++ (List.replicate (38 - role.text.toList.length) ' ' ++
        (' ' :: s.toList)) := by
    simp [roleRow, padded, ← String.length_toList]
  have htake : (roleRow role s).toList.take 38 =
      role.text.toList ++ List.replicate (38 - role.text.toList.length) ' ' := by
    rw [hrow, ← List.append_assoc, List.take_left']
    rw [List.length_append, List.length_replicate]
    omega
  have hdrop : (roleRow role s).toList.drop 39 = s.toList := by
    rw [hrow, ← List.append_assoc, ← List.singleton_append, ← List.append_assoc, List.drop_left']
    rw [List.length_append, List.length_append, List.length_replicate, List.length_singleton]
    omega
  have hcolumn : ((roleRow role s).toList.take 38).reverse.dropWhile (· = ' ') =
      role.text.toList.reverse := by
    rw [htake, List.reverse_append, List.reverse_replicate, List.dropWhile_append_of_pos]
    · cases hcs : role.text.toList.reverse with
      | nil => rfl
      | cons c rest =>
          rw [List.dropWhile_cons_of_neg]
          rw [← List.head?_reverse, hcs] at hlast
          simpa using hlast
    · intro c hc
      simpa using List.eq_of_mem_replicate hc
  simp only [readRow, hcolumn, hdrop, List.reverse_reverse, String.ofList_toList,
    Role.ofText?_text, Option.map_some]

/-- Printed texts tell rows: each is indented and reads as a row, and it stands on one line if what
it tells with the role does. -/
def Tells (indent : String) (printed : List String) (rows : List (Role × String)) : Prop :=
  List.Forall₂ (fun line row => (∃ text, line = indent ++ text ∧ readRow text = some row) ∧
    (IsLine row.2 → IsLine line)) printed rows

theorem Tells.isLine {indent : String} {printed : List String} {rows : List (Role × String)}
    (h : Tells indent printed rows) (hrows : ∀ row ∈ rows, IsLine row.2) :
    ∀ line ∈ printed, IsLine line := by
  intro line hline
  obtain ⟨row, hrow, -, hplain⟩ := exists_left_of_mem h.flip hline
  exact hplain (hrows row hrow)

theorem isLine_role (role : Role) : IsLine (padded 38 role.text ++ " ") := by
  have hall : ∀ role ∈ Role.all, IsLine (padded 38 role.text ++ " ") := by decide
  exact hall role role.mem_all

/-- A row stands on one line if what is told with the role does. -/
theorem isLine_roleRow (role : Role) {s : String} (h : IsLine s) : IsLine (roleRow role s) :=
  (isLine_role role).append h

theorem isLine_toString (n : Nat) : IsLine (toString n) := by
  have hdigit : ∀ c ∈ (toString n).toList, c.isDigit = true := by
    intro c hc
    rw [Nat.toString_eq_repr, Nat.toList_repr] at hc
    exact Nat.isDigit_of_mem_toDigits (by decide) (by decide) hc
  refine ⟨fun hmem => ?_, fun hlast => ?_⟩
  · cases hdigit _ hmem
  · cases hdigit _ (List.mem_of_getLast? hlast)

theorem tells_map {α : Type} {indent : String} (hindent : IsLine indent) (row : α → Role × String)
    (items : List α) :
    Tells indent (items.map fun item => indent ++ roleRow (row item).1 (row item).2)
      (items.map row) := by
  rw [Tells, List.forall₂_map_left_iff, List.forall₂_map_right_iff, List.forall₂_same]
  exact fun item _ => ⟨⟨_, rfl, readRow_roleRow _ _⟩, fun h => hindent.append (isLine_roleRow _ h)⟩

/-! ## Counts of roles -/

variable (roles : List Role)

/-- The counts tell how often each role occurs that occurs. -/
theorem mem_roleCounts_iff (role : Role) (n : Nat) :
    (role, n) ∈ roleCounts roles ↔ n = roles.count role ∧ n ≠ 0 := by
  have hmem := role.mem_all
  simp only [roleCounts, List.mem_filter, List.mem_map, Prod.mk.injEq, ne_eq, decide_eq_true_eq]
  constructor
  · rintro ⟨⟨_, -, rfl, rfl⟩, hne⟩
    exact ⟨rfl, hne⟩
  · rintro ⟨rfl, hne⟩
    exact ⟨⟨role, hmem, rfl, rfl⟩, hne⟩

/-- The counts are in the order of the roles. -/
theorem pairwise_roleCounts :
    (roleCounts roles).Pairwise fun a b => a.1.rank < b.1.rank := by
  have hall : Role.all.Pairwise fun a b => a.rank < b.rank := by decide
  rw [roleCounts]
  exact List.Pairwise.filter _ (hall.map _ fun _ _ h => h)

/-- The counts of all roles add up to the number of occurrences. -/
theorem sum_count_all : (Role.all.map fun role => roles.count role).sum = roles.length := by
  induction roles with
  | nil => decide
  | cons role rest ih =>
      have hone : ∀ role ∈ Role.all, (Role.all.map fun r => if role = r then 1 else 0).sum = 1 := by
        decide
      simp only [List.count_cons, beq_iff_eq, List.sum_map_add, ih, hone role role.mem_all,
        List.length_cons]

theorem sum_filter_ne_zero {α : Type} (pairs : List (α × Nat)) :
    ((pairs.filter fun pair => pair.2 ≠ 0).map Prod.snd).sum = (pairs.map Prod.snd).sum := by
  induction pairs with
  | nil => rfl
  | cons pair rest ih =>
      by_cases hzero : pair.2 = 0
      · simpa [hzero] using ih
      · simpa [hzero] using ih

/-- The counts that are told add up to the number of occurrences. -/
theorem sum_roleCounts : ((roleCounts roles).map Prod.snd).sum = roles.length := by
  rw [roleCounts, sum_filter_ne_zero, List.map_map]
  exact sum_count_all roles

/-- Counts tell how often each role occurs: each that occurs once, in the order of the roles. -/
structure CountsOf (roles : List Role) (counts : List (Role × Nat)) : Prop where
  ordered : counts.Pairwise fun a b => a.1.rank < b.1.rank
  mem_iff : ∀ role n, (role, n) ∈ counts ↔ n = roles.count role ∧ n ≠ 0
  sum_eq : (counts.map Prod.snd).sum = roles.length

theorem countsOf_roleCounts : CountsOf roles (roleCounts roles) :=
  ⟨pairwise_roleCounts roles, mem_roleCounts_iff roles, sum_roleCounts roles⟩

end Report

/-! ## Runs of the commands -/

theorem Text.join_eq_unlines (ls : List String) :
    String.join (ls.map (· ++ "\n")) = unlines ls := by
  induction ls with
  | nil => rfl
  | cons line rest ih =>
      rw [List.map_cons, String.join_cons, ih]
      rfl

theorem Outcome.output_success (ls : List String) : (Outcome.success ls).output = unlines ls :=
  join_eq_unlines ls

/-- The model in a file of a store, or why there is none. -/
def Store.load (s : Store) (path : String) : Except Fault Model :=
  match s.read path with
  | none => .error (.unreadable path)
  | some text => (SourceFile.mk path text).load (Format.ofPath path)

/-- A command that only looks at a model leaves the files alone. -/
def Action.OnlyLooks (action : Action) (options : Options) : Prop :=
  action = .generate → options.dryRun = true

/-- What a command that only looks at a model tells about it. -/
def Action.report (action : Action) (options : Options) (model : Model) : Outcome :=
  let setting := Model.standardSetting (options.serviceUrl?.getD Model.defaultServiceUrl)
  match action with
  | .check => shown (Report.check options.model model) (model.entities setting)
  | .list => shown (Report.list setting.target.naming) (model.descriptors setting)
  | .generate => shown Report.preview (model.preview setting)

theorem loadFile_run (s : Store) (path : String) :
    (loadFile path : StateM Store (Except Fault Model)).run s = (s.load path, s) := by
  have hread : (FileAccess.readText path : StateM Store (Option String)).run s =
      (s.read path, s) := rfl
  unfold loadFile Store.load
  rw [run_bind, hread]
  cases s.read path <;> rfl

/-- A command that only looks at a model leaves all files alone. -/
theorem Action.run_eq_report {action : Action} {options : Options}
    (h : action.OnlyLooks options) (s : Store) :
    (action.run options : StateM Store Outcome).run s =
      (match s.load options.model with
        | .error fault => .failure fault.message
        | .ok model => action.report options model, s) := by
  unfold Action.run
  rw [run_bind, loadFile_run]
  cases s.load options.model with
  | error fault => rfl
  | ok model =>
      cases action with
      | check => rfl
      | list => rfl
      | generate =>
          simp only [Action.runOn, Action.report, h rfl, if_true]
          rfl

/-! ## Agreement -/

/-- The rows of a model: the roles and the names of its entities, in order. -/
def Model.rows (naming : Naming) (model : Model) : List (Role × String) :=
  model.bindings.map fun binding => (binding.2, naming.roleName binding.1 binding.2)

/-- What the list prints for some rows. -/
def Report.listing (rows : List (Role × String)) (printed : List String) : List String :=
  if rows.isEmpty then ["No entities derived"] else "Entities:" :: printed

/-- The heading of a row in the preview. -/
def Report.heading (row : Role × String) : String :=
  "── " ++ (row.2 ++ ".h") ++ " ──"

/-- The number of rows in the preview. -/
def Report.summary (rows : List (Role × String)) : List String :=
  ["── Summary ──", toString rows.length ++ " files would be generated"]

/-- What the commands tell about the same rows.  The list shows the rows, and the preview shows a
header for each of them.  The check tells how many rows there are, and how many of each role.  If
no name is broken by a line break, each row of the list and each heading of the preview is a line of
the output; those of the check always are, behind its first two texts. -/
structure TellRows (rows : List (Role × String)) (checked listed previewed : Outcome) : Prop where
  listed : ∃ printed, Report.Tells "  " printed rows ∧
    listed.output = unlines (Report.listing rows printed) ∧
      ((∀ row ∈ rows, IsLine row.2) → lines listed.output = Report.listing rows printed)
  previewed : ∃ contents : List String, contents.length = rows.length ∧
    previewed.output = unlines
      (((rows.zip contents).flatMap fun file => [Report.heading file.1, file.2]) ++
        Report.summary rows) ∧
      ((∀ row ∈ rows, IsLine row.2) → lines previewed.output =
        ((rows.zip contents).flatMap fun file => Report.heading file.1 :: endedLines file.2) ++
          Report.summary rows)
  checked : ∃ counts, Report.CountsOf (rows.map Prod.fst) counts ∧
    ∃ printed, Report.Tells "    " printed (counts.map fun count => (count.1, toString count.2)) ∧
      ∃ first second, checked.output = unlines
          (first :: second :: ("  " ++ toString rows.length ++ " entities") :: printed) ∧
        lines checked.output = endedLines first ++ endedLines second ++
          ("  " ++ toString rows.length ++ " entities") :: printed

namespace Report

theorem Tells.isLine_listing {rows : List (Role × String)} {printed : List String}
    (h : Tells "  " printed rows) (hrows : ∀ row ∈ rows, IsLine row.2) :
    ∀ line ∈ listing rows printed, IsLine line := by
  unfold listing
  split
  · exact List.forall_mem_singleton.mpr (by decide)
  · exact List.forall_mem_cons.mpr ⟨by decide, h.isLine hrows⟩

/-- The headings are lines of the preview, with the lines of the headers between them. -/
theorem lines_previewed {rows : List (Role × String)} (hrows : ∀ row ∈ rows, IsLine row.2)
    (contents : List String) :
    lines (unlines (((rows.zip contents).flatMap fun file => [heading file.1, file.2]) ++
      summary rows)) =
        ((rows.zip contents).flatMap fun file => heading file.1 :: endedLines file.2) ++
          summary rows := by
  have hsummary : (summary rows).flatMap endedLines = summary rows := by
    rw [← lines_unlines_eq_flatMap]
    refine lines_unlines_of_isLine (List.forall_mem_cons.mpr ⟨by decide, ?_⟩)
    exact List.forall_mem_singleton.mpr ((isLine_toString _).append (by decide))
  rw [lines_unlines_eq_flatMap, List.flatMap_append, hsummary, List.flatMap_assoc]
  refine congrArg (· ++ _) (List.flatMap_congr fun file hfile => ?_)
  have hrow : IsLine file.1.2 := hrows _ (List.of_mem_zip hfile).1
  have hheading : IsLine (heading file.1) :=
    (IsLine.append (by decide) (hrow.append (by decide))).append (by decide)
  rw [List.flatMap_cons, List.flatMap_singleton, endedLines_of_lineFree hheading.free,
    hheading.dropReturn_eq]
  rfl

/-- The number of rows and the rows of the check are lines of what it tells. -/
theorem lines_checked {first second : String} {printed : List String} (n : Nat)
    (h : ∀ line ∈ printed, IsLine line) :
    lines (unlines (first :: second :: ("  " ++ toString n ++ " entities") :: printed)) =
      endedLines first ++ endedLines second ++ ("  " ++ toString n ++ " entities") :: printed := by
  have hnumber : IsLine ("  " ++ toString n ++ " entities") :=
    (IsLine.append (by decide) (isLine_toString n)).append (by decide)
  have hrest := lines_unlines_of_isLine (List.forall_mem_cons.mpr ⟨hnumber, h⟩)
  rw [lines_unlines_eq_flatMap] at hrest ⊢
  rw [List.flatMap_cons, List.flatMap_cons, hrest, List.append_assoc]

end Report

/-- The preview shows the headers of rows one after the other. -/
theorem Report.preview_eq {rows : List (Role × String)} {ps : List Model.PreviewFile}
    (h : List.Forall₂ (fun row p => p.path = row.2 ++ ".h") rows ps) :
    Report.preview ps =
      ((rows.zip (ps.map Model.PreviewFile.content)).flatMap fun file =>
        [Report.heading file.1, file.2]) ++ Report.summary rows := by
  have hfiles : (ps.flatMap fun file => [ruled file.path, file.content]) =
      (rows.zip (ps.map Model.PreviewFile.content)).flatMap fun file =>
        [heading file.1, file.2] := by
    induction h with
    | nil => rfl
    | cons hpath _ ih =>
        rw [List.flatMap_cons, ih, hpath]
        rfl
  rw [Report.preview, hfiles, summary, h.length_eq]
  rfl

section Descriptors

variable {model : Model} {serviceUrl : String} {ds : List Descriptor}
  (hds : model.descriptors (Model.standardSetting serviceUrl) = .ok ds)

include hds

/-- The descriptors of a model have its rows. -/
theorem Model.rows_eq :
    model.rows Cpp.naming = ds.map fun d => (d.role, Cpp.naming.descriptorName d) := by
  obtain ⟨hbind, -⟩ := descriptors_eq_ok_iff.mp hds
  rw [rows, ← bind_eq_ok_iff.mp hbind, List.map_map]
  rfl

/-- The entities of a model have the roles of its rows. -/
theorem Model.roles_entities {es : List Entity}
    (hes : model.entities (standardSetting serviceUrl) = .ok es) :
    es.map Entity.role = (model.rows Cpp.naming).map Prod.fst := by
  obtain ⟨es', _, _, hes', -, -, hderived⟩ := stages_of_descriptors hds
  obtain rfl : es = es' := Except.ok.inj (hes.symm.trans hes')
  rw [rows_eq hds, List.map_map, ← List.forall₂_eq_eq_eq, List.forall₂_map_left_iff,
    List.forall₂_map_right_iff]
  exact hderived.entities.flip.imp fun _ _ hde => hde.2

/-- The files of a preview are called like the rows of the model. -/
theorem Model.paths_preview {ps : List PreviewFile}
    (hps : model.preview (standardSetting serviceUrl) = .ok ps) :
    List.Forall₂ (fun row p => p.path = row.2 ++ ".h") (model.rows Cpp.naming) ps := by
  obtain ⟨_, _, ps', -, -, hps', hshown⟩ := stages_of_descriptors hds
  obtain rfl : ps = ps' := Except.ok.inj (hps.symm.trans hps')
  rw [rows_eq hds, List.forall₂_map_left_iff]
  refine hshown.previews.imp fun d p hpath => hpath.trans ?_
  have hdot : ".h" = "." ++ "h" := by decide
  rw [hdot, ← String.append_assoc]
  rfl

end Descriptors

section Outcomes

variable {model : Model} {ds : List Descriptor}
  (hds : ∀ serviceUrl, model.descriptors (Model.standardSetting serviceUrl) = .ok ds)
  (options : Options)

include hds

/-- The list shows the rows of the model. -/
theorem Action.report_list : ∃ printed, Report.Tells "  " printed (model.rows Cpp.naming) ∧
    Action.report .list options model =
      .success (Report.listing (model.rows Cpp.naming) printed) := by
  have hindent : IsLine "  " := by decide
  have htells := Report.tells_map hindent
    (fun d : Descriptor => (d.role, Cpp.naming.descriptorName d)) ds
  rw [← Model.rows_eq (hds Model.defaultServiceUrl)] at htells
  refine ⟨_, htells, ?_⟩
  have hempty : (model.rows Cpp.naming).isEmpty = ds.isEmpty := by
    rw [Model.rows_eq (hds Model.defaultServiceUrl), List.isEmpty_map]
  have hlist : Action.report .list options model = .success (Report.list Cpp.naming ds) := by
    rw [Action.report, hds]
    rfl
  rw [hlist, Report.listing, hempty, Report.list]

/-- The preview shows a header for each row of the model. -/
theorem Action.report_generate : ∃ contents : List String,
    contents.length = (model.rows Cpp.naming).length ∧
      Action.report .generate options model = .success
        ((((model.rows Cpp.naming).zip contents).flatMap fun file =>
          [Report.heading file.1, file.2]) ++ Report.summary (model.rows Cpp.naming)) := by
  obtain ⟨_, _, ps, -, -, hps, -⟩ :=
    Model.stages_of_descriptors (hds (options.serviceUrl?.getD Model.defaultServiceUrl))
  have hpaths := Model.paths_preview (hds _) hps
  refine ⟨ps.map Model.PreviewFile.content, ?_, ?_⟩
  · rw [List.length_map, hpaths.length_eq]
  · rw [Action.report, hps, ← Report.preview_eq hpaths]
    rfl

/-- The check tells how many rows the model has, and how many of each role. -/
theorem Action.report_check :
    ∃ counts, Report.CountsOf ((model.rows Cpp.naming).map Prod.fst) counts ∧
      ∃ printed,
        Report.Tells "    " printed (counts.map fun count => (count.1, toString count.2)) ∧
          ∃ first second, Action.report .check options model = .success
            (first :: second ::
              ("  " ++ toString (model.rows Cpp.naming).length ++ " entities") :: printed) := by
  obtain ⟨es, _, _, hes, -, -, -⟩ :=
    Model.stages_of_descriptors (hds (options.serviceUrl?.getD Model.defaultServiceUrl))
  have hroles := Model.roles_entities (hds _) hes
  have hlength : es.length = (model.rows Cpp.naming).length := by
    rw [← List.length_map Entity.role, hroles, List.length_map]
  have hcheck : Action.report .check options model =
      .success (Report.check options.model model es) := by
    rw [Action.report, hes]
    rfl
  refine ⟨Report.roleCounts (es.map Entity.role), hroles ▸ Report.countsOf_roleCounts _, _,
    Report.tells_map (by decide) (fun count : Role × Nat => (count.1, toString count.2)) _,
    "✓ " ++ options.model ++ " is valid",
    "  " ++ Report.sizes model ++ " in " ++ model.headerSpace, ?_⟩
  rw [hcheck, Report.check, hlength]
  rfl

end Outcomes

/-- The commands that only look at a model tell about its rows. -/
theorem Model.tellRows {model : Model} {ds : List Descriptor}
    (hds : model.descriptors (standardSetting defaultServiceUrl) = .ok ds) (o₁ o₂ o₃ : Options) :
    (∀ outcome ∈ [Action.report .check o₁ model, Action.report .list o₂ model,
        Action.report .generate o₃ model], outcome.status = 0 ∧ outcome.complaint = "") ∧
      TellRows (model.rows Cpp.naming) (Action.report .check o₁ model)
        (Action.report .list o₂ model) (Action.report .generate o₃ model) := by
  -- The address of the service does not matter for the descriptors.
  have hsetting : ∀ url, model.descriptors (standardSetting url) = .ok ds := fun _ => hds
  obtain ⟨counts, hcounts, told, htold, first, second, hchecked⟩ := Action.report_check hsetting o₁
  obtain ⟨printed, hprinted, hlisted⟩ := Action.report_list hsetting o₂
  obtain ⟨contents, hlength, hpreviewed⟩ := Action.report_generate hsetting o₃
  rw [hchecked, hlisted, hpreviewed]
  refine ⟨by simp [Outcome.success], ?_, ?_, ?_⟩
  · refine ⟨printed, hprinted, Outcome.output_success _, fun hrows => ?_⟩
    rw [Outcome.output_success]
    exact lines_unlines_of_isLine (hprinted.isLine_listing hrows)
  · refine ⟨contents, hlength, Outcome.output_success _, fun hrows => ?_⟩
    rw [Outcome.output_success, Report.lines_previewed hrows]
  · refine ⟨counts, hcounts, told, htold, first, second, Outcome.output_success _, ?_⟩
    have hplain : ∀ line ∈ told, IsLine line :=
      htold.isLine (List.forall_mem_map.mpr fun count _ => Report.isLine_toString count.2)
    rw [Outcome.output_success, Report.lines_checked _ hplain]

/-- The commands that only look at a model fail together if its names clash. -/
theorem Model.reports_of_clash {model : Model} {error : DerivationError}
    (h : model.descriptors (standardSetting defaultServiceUrl) = .error error)
    (options : Options) (action : Action) :
    action.report options model = .failure error.message := by
  obtain ⟨hentities, -, hpreview⟩ := stages_of_clash
    (show model.descriptors (standardSetting (options.serviceUrl?.getD defaultServiceUrl)) =
      .error error from h)
  cases action with
  | check => rw [Action.report, hentities]; rfl
  | list => rw [Action.report]; exact congrArg (shown _) h
  | generate => rw [Action.report, hpreview]; rfl

/-! ## The commands -/

/-- The commands that only look at a model succeed or fail together, and leave all files alone.
They succeed if a model can be loaded and its names can stand side by side, and then tell about the
rows of the model. -/
theorem Action.reports_agree (s : Store) (given : Option String) (o₁ o₂ o₃ : Options) :
    let look (action : Action) (options : Options) : Outcome × Store :=
      (action.run { options with model? := given, dryRun := true } : StateM Store Outcome).run s
    let checked := look .check o₁
    let listed := look .list o₂
    let previewed := look .generate o₃
    (checked.2 = s ∧ listed.2 = s ∧ previewed.2 = s) ∧
      ((∀ outcome ∈ [checked.1, listed.1, previewed.1],
          outcome.status = 1 ∧ outcome.output = "") ∨
        (∀ outcome ∈ [checked.1, listed.1, previewed.1],
          outcome.status = 0 ∧ outcome.complaint = "") ∧
          ∃ model, s.load (given.getD "model.toml") = .ok model ∧
            TellRows (model.rows Cpp.naming) checked.1 listed.1 previewed.1) := by
  have hlook : ∀ action (options : Options),
      (Action.run action { options with model? := given, dryRun := true } :
          StateM Store Outcome).run s =
        (match s.load (given.getD "model.toml") with
          | .error fault => .failure fault.message
          | .ok model => action.report { options with model? := given, dryRun := true } model, s) :=
    fun action options => run_eq_report (fun _ => rfl) s
  simp only [hlook, true_and]
  cases hload : s.load (given.getD "model.toml") with
  | error fault => exact .inl (by simp [Outcome.failure])
  | ok model =>
      cases hds : model.descriptors (Model.standardSetting Model.defaultServiceUrl) with
      | error e =>
          simp only [Model.reports_of_clash hds]
          exact .inl (by simp [Outcome.failure])
      | ok ds =>
          obtain ⟨hstatus, hrows⟩ := Model.tellRows hds
            { o₁ with model? := given, dryRun := true } { o₂ with model? := given, dryRun := true }
            { o₃ with model? := given, dryRun := true }
          exact .inr ⟨hstatus, model, rfl, hrows⟩

end SdkHeaders
