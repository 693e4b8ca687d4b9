import ReportTemplate.Cli.Machine
import ReportTemplate.Proofs.Cli.FileTree
import ReportTemplate.Proofs.Cli.Inputs

/-! Renderings on a machine, from the command line to the files.
Until all inputs are loaded a run only reports, so a run that fails with one of them leaves files
and output alone. After that it fails only where the text cannot be stored.
-/

namespace ReportTemplate.Cli

-----------------------------------------------------------------------------------------
-- Runs of commands
-----------------------------------------------------------------------------------------

/-- The machine with more lines reported. -/
def Machine.report (machine : Machine) (lines : List String) : Machine :=
  { machine with reports := machine.reports ++ lines }

theorem Machine.report_report (machine : Machine) (first second : List String)
    : (machine.report first).report second = machine.report (first ++ second) := by
  rw [report, report, report, List.append_assoc]

theorem Machine.files_report (machine : Machine) (lines : List String)
    : (machine.report lines).files = machine.files :=
  rfl

/-- Holds when a command run on a machine ends with a result and leaves another machine. -/
def Runs {α : Type} (command : ExceptT Failure (StateM Machine) α) (machine : Machine)
    (result : Except Failure α) (after : Machine)
    : Prop :=
  command.run.run machine = (result, after)

/-- Holds when a command run on a machine ends with a result and has only reported lines. -/
def OnlyReports {α : Type} (command : ExceptT Failure (StateM Machine) α) (machine : Machine)
    (result : Except Failure α)
    : Prop :=
  ∃ lines, Runs command machine result (machine.report lines)

section

variable {α β : Type} {command : ExceptT Failure (StateM Machine) α}
  {next : α → ExceptT Failure (StateM Machine) β} {machine middle after : Machine}

namespace Runs

theorem bind {value : α} {result : Except Failure β}
    (h : Runs command machine (.ok value) middle) (hn : Runs (next value) middle result after)
    : Runs (command >>= next) machine result after := by
  unfold Runs at *
  rw [ExceptT.run_bind, StateT.run_bind, h]
  exact hn

/-- What follows a failure does not run. -/
theorem bind_error {failure : Failure} (h : Runs command machine (.error failure) after)
    : Runs (command >>= next) machine (.error failure) after := by
  unfold Runs at *
  rw [ExceptT.run_bind, StateT.run_bind, h]
  rfl

/-- An action that cannot fail is a command. -/
theorem lift {action : StateM Machine α} {value : α}
    (h : action.run machine = (value, after))
    : Runs (liftM action) machine (.ok value) after := by
  unfold Runs
  rw [ExceptT.run_liftM, StateT.run_map, h]
  rfl

/-- The refusal of an operation is a failure. -/
theorem expect {ε : Type} {operation : StateM Machine (Except ε α)} {result : Except ε α}
    (explain : ε → Failure) (h : operation.run machine = (result, after))
    : Runs (expect explain operation) machine (result.mapError explain) after := by
  unfold Runs Cli.expect
  rw [ExceptT.run_mk, StateT.run_bind, h]
  rfl

/-- What follows a command that leaves the machine as it is decides what is reported. -/
theorem bind_unchanged {value : α} {result : Except Failure β}
    (h : Runs command machine (.ok value) machine)
    (hn : OnlyReports (next value) machine result)
    : OnlyReports (command >>= next) machine result := by
  obtain ⟨lines, hl⟩ := hn
  exact ⟨lines, h.bind hl⟩

/-- Commands that only report do so one after the other. -/
theorem bind_onlyReports {value : α} {lines : List String} {result : Except Failure β}
    (h : Runs command machine (.ok value) (machine.report lines))
    (hn : OnlyReports (next value) (machine.report lines) result)
    : OnlyReports (command >>= next) machine result := by
  obtain ⟨more, hm⟩ := hn
  refine ⟨lines ++ more, h.bind ?_⟩
  rwa [Machine.report_report] at hm

theorem expect_ok {ε : Type} {operation : StateM Machine (Except ε α)} {value : α}
    (explain : ε → Failure) (h : operation.run machine = (.ok value, after))
    : Runs (Cli.expect explain operation) machine (.ok value) after :=
  .expect explain h

theorem expect_error {ε : Type} {operation : StateM Machine (Except ε α)} {reason : ε}
    (explain : ε → Failure) (h : operation.run machine = (.error reason, after))
    : Runs (Cli.expect explain operation) machine (.error (explain reason)) after :=
  .expect explain h

/-- A command that leaves the machine as it is has reported no line. -/
theorem onlyReports {result : Except Failure α} (h : Runs command machine result machine)
    : OnlyReports command machine result :=
  ⟨[], by rwa [Machine.report, List.append_nil]⟩

end Runs

namespace OnlyReports

theorem pure (value : α) (machine : Machine)
    : OnlyReports (pure value) machine (.ok value) :=
  Runs.onlyReports rfl

theorem bind {value : α} {result : Except Failure β}
    (h : OnlyReports command machine (.ok value))
    (hn : ∀ lines, OnlyReports (next value) (machine.report lines) result)
    : OnlyReports (command >>= next) machine result := by
  obtain ⟨lines, hl⟩ := h
  exact hl.bind_onlyReports (hn lines)

theorem bind_error {failure : Failure} (h : OnlyReports command machine (.error failure))
    : OnlyReports (command >>= next) machine (.error failure) := by
  obtain ⟨lines, hl⟩ := h
  exact ⟨lines, hl.bind_error⟩

theorem note (debug : Bool) (message : String) (machine : Machine)
    : OnlyReports (liftM (note (m := StateM Machine) debug message)) machine (.ok ()) := by
  cases debug with
  | false => exact Runs.onlyReports (.lift rfl)
  | true => exact ⟨["DEBUG " ++ message], .lift rfl⟩

theorem reportLines {ε : Type} (line : ε → String) (events : List ε) (machine : Machine)
    : OnlyReports
        (events.forM fun event => liftM (Host.reportLine (m := StateM Machine) (line event)))
        machine (.ok ()) := by
  induction events generalizing machine with
  | nil => exact pure () machine
  | cons event events ih => exact bind ⟨[line event], .lift rfl⟩ fun lines => ih _

end OnlyReports

end

-----------------------------------------------------------------------------------------
-- Loading
-----------------------------------------------------------------------------------------

open Input

theorem runs_loadFile (path : String) (machine : Machine)
    : Runs (loadFile path) machine
        ((Context.ofFile path (machine.files.readText path)).mapError (Failure.loading path))
        machine :=
  .expect _ rfl

/-- Context files are merged until one of them fails, by induction on their row. -/
theorem onlyReports_addFiles (debug : Bool) (paths : List String) (start : Context)
    (machine : Machine)
    : match firstFailure? machine.files (paths.map .context) with
      | some (_, failure) =>
          OnlyReports (paths.foldlM (addFile debug) start) machine (.error failure)
      | none =>
          ∃ contexts, List.Forall₂ (Holds machine.files) paths contexts
            ∧ OnlyReports (paths.foldlM (addFile debug) start) machine
              (.ok (contexts.foldl Context.merge start)) := by
  induction paths generalizing start machine with
  | nil => exact ⟨[], .nil, .pure start machine⟩
  | cons path paths ih =>
      have hr := runs_loadFile path machine
      have hc := ofFile_readText machine.files path
      rw [List.map_cons, firstFailure?_cons, List.foldlM_cons]
      cases hf : (Input.context path).failure? machine.files with
      | some failure =>
          rw [hf] at hc
          rw [hc] at hr
          exact .bind_error (.bind_error hr.onlyReports)
      | none =>
          rw [hf] at hc
          obtain ⟨context, hh, hc⟩ := hc
          rw [hc] at hr
          obtain ⟨lines, hadd⟩ : OnlyReports (addFile debug start path) machine
              (.ok (start.merge context)) :=
            hr.bind_unchanged (.bind (.note _ _ _) fun _ => .pure _ _)
          -- The next files are read from a machine with more reports but the same files.
          have hi := ih (start.merge context) (machine.report lines)
          rw [Machine.files_report] at hi
          cases hrest : firstFailure? machine.files (paths.map .context) with
          | some found =>
              rw [hrest] at hi
              exact hadd.bind_onlyReports hi
          | none =>
              rw [hrest] at hi
              obtain ⟨contexts, hall, hi⟩ := hi
              exact ⟨context :: contexts, .cons hh hall, hadd.bind_onlyReports hi⟩

/-- Overrides are merged behind the files unless one of them fails. -/
theorem onlyReports_addOverrides (debug : Bool) (arguments : List String) (context : Context)
    (machine : Machine)
    : match firstFailure? machine.files (arguments.map .override) with
      | some (_, failure) =>
          OnlyReports (addOverrides debug arguments context) machine (.error failure)
      | none =>
          ∃ changes, List.Forall₂ Context.Override.IsWritten arguments changes
            ∧ OnlyReports (addOverrides debug arguments context) machine
              (.ok (context.merge (({} : Context).setAll changes))) := by
  by_cases hempty : arguments = []
  · subst hempty
    have hmerge : context.merge {} = context := by
      simp [Context.merge, Value.overlayEntries]
    refine ⟨[], .nil, ?_⟩
    rw [Context.setAll, List.foldl_nil, hmerge]
    exact .pure context machine
  · have hover := ofOverrides_arguments machine.files arguments
    have hbranch : arguments.isEmpty ≠ true := by simp [hempty]
    have hread : Runs
        (expect Failure.ofLoad (pure (Context.ofOverrides arguments) : StateM Machine _))
        machine ((Context.ofOverrides arguments).mapError Failure.ofLoad) machine :=
      .expect _ rfl
    cases hf : firstFailure? machine.files (arguments.map .override) with
    | some found =>
        rw [hf] at hover
        rw [hover] at hread
        rw [addOverrides, if_neg hbranch]
        exact .bind_error hread.onlyReports
    | none =>
        rw [hf] at hover
        obtain ⟨overrides, hover⟩ := hover
        rw [hover] at hread
        obtain ⟨changes, hw, rfl⟩ := Context.exists_of_ofOverrides hover
        rw [addOverrides, if_neg hbranch, hover]
        exact ⟨changes, hw, hread.bind_unchanged (.bind (.note _ _ _) fun _ => .pure _ _)⟩

/-- The context of a rendering is loaded unless one of its files or overrides fails. -/
theorem onlyReports_loadContext (debug : Bool) (settings : RenderSettings) (machine : Machine)
    : match firstFailure? machine.files
        (settings.contexts.map .context ++ settings.overrides.map .override) with
      | some (_, failure) => OnlyReports (loadContext debug settings) machine (.error failure)
      | none =>
          ∃ context, settings.Gives machine.files context
            ∧ OnlyReports (loadContext debug settings) machine (.ok context) := by
  have hfiles := onlyReports_addFiles debug settings.contexts {} machine
  rw [firstFailure?_append]
  cases hf : firstFailure? machine.files (settings.contexts.map .context) with
  | some found =>
      rw [hf] at hfiles
      exact .bind_error hfiles
  | none =>
      rw [hf] at hfiles
      obtain ⟨contexts, hall, lines, hl⟩ := hfiles
      have hover := onlyReports_addOverrides debug settings.overrides
        (Context.mergeAll contexts) (machine.report lines)
      rw [Machine.files_report] at hover
      cases ho : firstFailure? machine.files (settings.overrides.map .override) with
      | some found =>
          rw [ho] at hover
          exact hl.bind_onlyReports hover
      | none =>
          rw [ho] at hover
          obtain ⟨changes, hw, hover⟩ := hover
          exact ⟨_, ⟨contexts, changes, hall, hw, rfl⟩, hl.bind_onlyReports hover⟩

-----------------------------------------------------------------------------------------
-- Delivering
-----------------------------------------------------------------------------------------

theorem writeText_run (path text : String) (machine : Machine)
    : (Host.writeText (m := StateM Machine) path text).run machine
      = match machine.files.writeText path text with
        | .ok files => (.ok (), { machine with files })
        | .error reason => (.error reason, machine) :=
  rfl

/-- A file is written and its path printed, unless it refuses the text. -/
theorem runs_writeFile (path text : String) (machine : Machine)
    : match machine.files.writeText path text with
      | .ok files =>
          Runs (writeFile path text) machine (.ok ())
            { machine with files, output := machine.output ++ ("wrote " ++ path) ++ "\n" }
      | .error _ =>
          ∃ failure after, failure.exitCode = 5 ∧ after.output = machine.output
            ∧ Runs (writeFile path text) machine (.error failure) after := by
  cases hw : machine.files.writeText path text with
  | error reason =>
      have hrun : Runs (expect (Failure.atPath path) (Host.writeText path text)) machine
          (.error (.atPath path reason)) machine :=
        .expect_error _ (by rw [writeText_run, hw])
      exact ⟨_, machine, rfl, rfl, hrun.bind_error⟩
  | ok files =>
      have hrun : Runs (expect (Failure.atPath path) (Host.writeText path text)) machine
          (.ok ()) { machine with files } :=
        .expect_ok _ (by rw [writeText_run, hw])
      exact hrun.bind (.lift rfl)

/-- A text is stored in its file and the path printed, unless the folder or the file refuses. -/
theorem runs_writeOutput (path text : String) (machine : Machine)
    : match machine.files.store path text with
      | .ok files =>
          Runs (writeOutput path text) machine (.ok ())
            { machine with files, output := machine.output ++ ("wrote " ++ path) ++ "\n" }
      | .error _ =>
          ∃ failure after, failure.exitCode = 5 ∧ after.output = machine.output
            ∧ Runs (writeOutput path text) machine (.error failure) after := by
  rw [FileTree.store, writeOutput]
  cases folderOf? path with
  | none => exact runs_writeFile path text machine
  | some folder =>
      have hcreate : (Host.createFolders (m := StateM Machine) folder).run machine
          = ((machine.files.createFolders folder).2,
            { machine with files := (machine.files.createFolders folder).1 }) :=
        rfl
      simp only
      rcases hc : machine.files.createFolders folder with ⟨created, reason | _⟩
      · rw [hc] at hcreate
        exact ⟨_, { machine with files := created }, rfl, rfl,
          Runs.bind_error (.expect_error _ hcreate)⟩
      · rw [hc] at hcreate
        have hw := runs_writeFile path text { machine with files := created }
        simp only at hw ⊢
        cases hf : created.writeText path text with
        | error reason =>
            rw [hf] at hw
            obtain ⟨failure, after, hcode, hout, hw⟩ := hw
            exact ⟨failure, after, hcode, hout, Runs.bind (.expect_ok _ hcreate) hw⟩
        | ok files =>
            rw [hf] at hw
            exact Runs.bind (.expect_ok _ hcreate) hw

-----------------------------------------------------------------------------------------
-- Renderings
-----------------------------------------------------------------------------------------

/-- A rendering stops at the first input that fails, or else delivers its text. -/
theorem runs_render (debug : Bool) {options : RenderOptions}
    (h : options.showsContext = false) (machine : Machine)
    : match firstFailure? machine.files options.inputs with
      | some (_, failure) => OnlyReports (render debug options) machine (.error failure)
      | none =>
          ∃ text lines, options.Renders machine.files text
            ∧ ∀ result after,
              Runs (deliver text options.output) (machine.report lines) result after
              → Runs (render debug options) machine result after := by
  have hread : Runs (expect (Failure.atPath options.template)
      (Host.readText (m := StateM Machine) options.template)) machine
      ((machine.files.readText options.template).mapError (Failure.atPath options.template))
      machine :=
    .expect _ rfl
  rw [RenderOptions.inputs, firstFailure?_cons, failure?]
  cases ht : machine.files.readText options.template with
  | error reason =>
      rw [ht] at hread
      exact .bind_error hread.onlyReports
  | ok template =>
      rw [ht] at hread
      obtain ⟨noted, hn⟩ := OnlyReports.note debug ("loaded template " ++ options.template
        ++ " (" ++ toString template.utf8ByteSize ++ " bytes)") machine
      have hload := onlyReports_loadContext debug options.toRenderSettings
        (machine.report noted)
      rw [Machine.files_report] at hload
      simp only [Option.map_none, Option.none_or]
      cases hf : firstFailure? machine.files
        (options.contexts.map .context ++ options.overrides.map .override) with
      | some found =>
          rw [hf] at hload
          exact hread.bind_unchanged (hn.bind_onlyReports hload.bind_error)
      | none =>
          rw [hf] at hload
          obtain ⟨context, hgives, loaded, hl⟩ := hload
          have hbuild : Runs (expect Failure.ofEngine
              (pure (engineOf options.toRenderSettings) : StateM Machine _))
              ((machine.report noted).report loaded) (.ok { normalizes := !options.raw })
              ((machine.report noted).report loaded) :=
            .expect_ok _ rfl
          obtain ⟨logged, hlog⟩ := OnlyReports.reportLines
            (fun event => event.level.name ++ " " ++ event.message)
            (Engine.compile { normalizes := !options.raw } template context.toValue).log
            ((machine.report noted).report loaded)
          -- All that is reported before the text is delivered, by three steps of the run.
          refine ⟨_, noted ++ loaded ++ logged, ⟨template, context, ht, hgives, rfl⟩,
            fun result after hd => ?_⟩
          rw [← Machine.report_report, ← Machine.report_report] at hd
          refine hread.bind (hn.bind (hl.bind ?_))
          rw [if_neg (by simp [h])]
          exact hbuild.bind (hlog.bind hd)

/-- A run of the program whose command succeeds has no failure to report. -/
theorem run_of_ok {arguments : List String} {command : Command} {debug : Bool}
    {machine after : Machine}
    (h : Invocation.read arguments = .ok (.run command debug))
    (hr : Runs (runCommand debug command) machine (.ok ()) after)
    : (run (m := StateM Machine) arguments).run machine = (0, after) := by
  rw [run, h]
  simp only
  rw [StateT.run_bind, hr]
  rfl

/-- A run of the program reports the failure of its command and ends with its exit code. -/
theorem run_of_error {arguments : List String} {command : Command} {debug : Bool}
    {machine after : Machine} {failure : Failure}
    (h : Invocation.read arguments = .ok (.run command debug))
    (hr : Runs (runCommand debug command) machine (.error failure) after)
    : (run (m := StateM Machine) arguments).run machine
      = (failure.exitCode, after.report [failure.report]) := by
  rw [run, h]
  simp only
  rw [StateT.run_bind, hr]
  rfl

/-- How a run that has a text to deliver ends: the text is printed on a line of its own, or the
output file holds just the text, whatever else there was is still there, and the path is printed,
or the folder or the file refuses the text.
-/
inductive Delivers (machine : Machine) (text : String) : Option String → Nat → Machine → Prop
  | printed {after : Machine} (hf : after.files = machine.files)
      (ho : after.output = machine.output ++ text ++ "\n")
      : Delivers machine text none 0 after
  | stored {path : String} {after : Machine} {target : Place}
      (hs : machine.files.store path text = .ok after.files)
      (hr : after.files.readText path = .ok text) (hl : after.files.locate path = .ok target)
      (hk : ∀ place node, place ≠ target → machine.files.node? place = some node
        → after.files.node? place = some node)
      (ho : after.output = machine.output ++ ("wrote " ++ path) ++ "\n")
      : Delivers machine text (some path) 0 after
  | refused {path : String} {reason : FileError} {after : Machine}
      (hs : machine.files.store path text = .error reason) (ho : after.output = machine.output)
      : Delivers machine text (some path) 5 after

/-- The first input that fails decides how a rendering ends: with one code when its file cannot
be read, with another one otherwise, and then no file has changed and nothing is printed. When
no input fails, the text of the rendering is delivered.
-/
theorem run_render {arguments : List String} {options : RenderOptions} {debug : Bool}
    (h : Invocation.read arguments = .ok (.run (.render options) debug))
    (hs : options.showsContext = false) (machine : Machine)
    : ∃ code after, (run (m := StateM Machine) arguments).run machine = (code, after)
      ∧ (code = 0 ∨ code = 2 ∨ code = 5)
      ∧ (∀ input failure, firstFailure? machine.files options.inputs = some (input, failure)
        → code = (if input.isReadable machine.files then 2 else 5)
          ∧ after.files = machine.files ∧ after.output = machine.output
          ∧ after.reports.getLast? = some failure.report)
      ∧ (firstFailure? machine.files options.inputs = none
        → ∃ text, options.Renders machine.files text
          ∧ Delivers machine text options.output code after) := by
  have hr := runs_render debug hs machine
  cases hf : firstFailure? machine.files options.inputs with
  | some found =>
      rw [hf] at hr
      obtain ⟨lines, hr⟩ := hr
      have hcode := exitCode_of_failure? (failure?_of_firstFailure? hf)
      refine ⟨_, _, run_of_error h hr, ?_, ?_, by simp⟩
      · rw [hcode]
        split
        · exact .inr (.inl rfl)
        · exact .inr (.inr rfl)
      · rintro input failure heq
        obtain rfl : found = (input, failure) := Option.some.inj heq
        exact ⟨hcode, rfl, rfl, by simp [Machine.report]⟩
  | none =>
      rw [hf] at hr
      obtain ⟨text, lines, htext, hr⟩ := hr
      cases ho : options.output with
      | none =>
          rw [ho] at hr
          have hrun := run_of_ok h (hr _ _ (.lift rfl))
          exact ⟨_, _, hrun, .inl rfl, by simp, fun _ => ⟨text, htext, .printed rfl rfl⟩⟩
      | some path =>
          rw [ho] at hr
          have hw := runs_writeOutput path text (machine.report lines)
          rw [Machine.files_report] at hw
          cases hstore : machine.files.store path text with
          | error reason =>
              rw [hstore] at hw
              obtain ⟨failure, after, hcode, hout, hw⟩ := hw
              have hrun := run_of_error h (hr _ _ hw)
              rw [hcode] at hrun
              exact ⟨_, _, hrun, .inr (.inr rfl), by simp,
                fun _ => ⟨text, htext, .refused hstore hout⟩⟩
          | ok files =>
              rw [hstore] at hw
              have hread := FileTree.readText_store hstore
              obtain ⟨target, hlocate, hkeep⟩ := FileTree.node?_store hstore
              exact ⟨_, _, run_of_ok h (hr _ _ hw), .inl rfl, by simp,
                fun _ => ⟨text, htext, .stored hstore hread hlocate hkeep rfl⟩⟩

/-- A template, a context for it, and a list, which is no context. -/
def pageFiles : FileTree :=
  .ofFiles [
    ("page.md", .text "\x7b\x7b site.name | upper \x7d\x7d by \x7b\x7b owner \x7d\x7d!"),
    ("site.json", .text "\x7b\"site\": \x7b\"name\": \"docs\"\x7d, \"owner\": \"Bob\"\x7d"),
    ("list.json", .text "[]")]

/-- The list fails before the missing file and the override do, and without these the page is
written in a new folder, with the name in the context file and the owner of the override.
-/
theorem run_render_page
    : (∃ after,
        (run (m := StateM Machine) ["render", "page.md", "-c", "list.json", "-c", "gone.yaml",
            "--set", "x", "-o", "out/page.md"]).run { files := pageFiles } = (2, after)
        ∧ after.files = pageFiles ∧ after.output = "")
      ∧ ∃ after,
        (run (m := StateM Machine) ["render", "page.md", "-c", "site.json", "--set", "owner=Ada",
            "--raw", "-o", "out/page.md"]).run { files := pageFiles } = (0, after)
        ∧ after.files.readText "out/page.md" = .ok "DOCS by Ada!"
        ∧ after.output = "wrote out/page.md\n" := by
  constructor
  · have hread : Invocation.read ["render", "page.md", "-c", "list.json", "-c", "gone.yaml",
          "--set", "x", "-o", "out/page.md"]
        = .ok (.run (.render {
            template := "page.md"
            contexts := ["list.json", "gone.yaml"]
            overrides := ["x"]
            output := some "out/page.md" }) false) := by
      decide +kernel
    have hf : firstFailure? pageFiles
          [.template "page.md", .context "list.json", .context "gone.yaml", .override "x"]
        = some (.context "list.json", .loading "list.json" (.shape "list")) := by
      decide +kernel
    obtain ⟨code, after, hrun, -, hfails, -⟩ := run_render hread rfl { files := pageFiles }
    obtain ⟨hcode, hfiles, hout, -⟩ := hfails _ _ hf
    have htwo : code = 2 := hcode.trans (by decide +kernel)
    exact ⟨after, by rw [hrun, htwo], hfiles, hout⟩
  · have hread : Invocation.read ["render", "page.md", "-c", "site.json", "--set", "owner=Ada",
          "--raw", "-o", "out/page.md"]
        = .ok (.run (.render {
            template := "page.md"
            contexts := ["site.json"]
            overrides := ["owner=Ada"]
            raw := true
            output := some "out/page.md" }) false) := by
      decide +kernel
    have hf : firstFailure? pageFiles
        [.template "page.md", .context "site.json", .override "owner=Ada"] = none := by
      decide +kernel
    have hsite : Context.ofFile "site.json" (pageFiles.readText "site.json")
        = .ok ⟨[("site", .map [("name", .string "docs")]), ("owner", .string "Bob")]⟩ := rfl
    have howner : Context.Override.read "owner=Ada" = .ok ⟨"owner", .string "Ada"⟩ := rfl
    obtain ⟨code, after, hrun, -, -, hloaded⟩ := run_render hread rfl { files := pageFiles }
    obtain ⟨text, ⟨template, _, ht, ⟨contexts, changes, hc, hw, rfl⟩, htext⟩, hd⟩ :=
      hloaded hf
    cases hc with
    | cons hc hnone =>
    cases hnone
    cases hw with
    | cons hw hnone =>
    cases hnone
    obtain rfl := hc.eq_of_ofFile hsite
    obtain rfl := hw.eq_of_read howner
    obtain rfl : "\x7b\x7b site.name | upper \x7d\x7d by \x7b\x7b owner \x7d\x7d!" = template :=
      Except.ok.inj (Eq.trans (by decide +kernel) ht)
    obtain rfl : text = "DOCS by Ada!" := htext.trans (by decide +kernel)
    cases hd with
    | stored hs hr hl hk ho => exact ⟨after, hrun, hr, ho.trans rfl⟩
    | refused hs ho =>
        have hok : (pageFiles.store "out/page.md" "DOCS by Ada!").isOk = true := by decide +kernel
        rw [hs] at hok
        cases hok

end ReportTemplate.Cli
