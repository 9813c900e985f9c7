import StackMachine.Proofs.Discipline
import StackMachine.Proofs.Iterate
import StackMachine.Proofs.Preparation

/-!
# How a run ends

Whether a run fails before it executes anything depends on the files alone: `Fails` says at what,
and `Prepares` to what settings, image and files a run comes otherwise. One of the two is always so
(`fails_or_prepares`), and each of them decides the run up to its execution (`run_of_fails`,
`run_of_prepares`). What remains is what the machine comes to. A run returns once more instructions
would not change its report (`Returns`), which is to say once the machine has stopped.
-/

namespace StackMachine

namespace Runner

/-! ## What a run comes to -/

/-- The run goes on with these settings. -/
structure Configures (o : Options) (files : Files) (settings : Settings) : Prop where
  loads : ∃ loaded, Settings.load files o.settingsFile = .ok loaded ∧ settings = o.apply loaded
  usable : settings.defect? = none

/-- The program that the options ask for, or why there is none. -/
inductive Finds (o : Options) (files : Files) : Except Error Image → Prop where
  | both (hprogram : o.program ≠ "") (hsource : o.sourceFile ≠ "") :
      Finds o files (.error .twoPrograms)
  | neither (hprogram : o.program = "") (hsource : o.sourceFile = "") :
      Finds o files (.error .noProgram)
  | unknown (hprogram : o.program ≠ "") (hsource : o.sourceFile = "")
      (hname : Program.ofName? o.program o.argument = none) :
      Finds o files (.error (.unknownProgram o.program))
  | builtIn {image : Image} (hprogram : o.program ≠ "") (hsource : o.sourceFile = "")
      (hname : Program.ofName? o.program o.argument = some image) : Finds o files (.ok image)
  | unreadable {cause : Image.FileError} (hprogram : o.program = "") (hsource : o.sourceFile ≠ "")
      (hload : Image.load files o.sourceFile = .error cause) :
      Finds o files (.error (.loading cause))
  | file {image : Image} (hprogram : o.program = "") (hsource : o.sourceFile ≠ "")
      (hload : Image.load files o.sourceFile = .ok image) : Finds o files (.ok image)

/-- The run fails before it executes anything: it does not get its settings or its program, or
cannot save the image. -/
inductive Fails (o : Options) (files : Files) : Error → Prop where
  | settingsFile {cause : Settings.FileError}
      (hload : Settings.load files o.settingsFile = .error cause) :
      Fails o files (.settingsFile cause)
  | settings {loaded : Settings} {cause : Settings.Invalid}
      (hload : Settings.load files o.settingsFile = .ok loaded)
      (hdefect : (o.apply loaded).defect? = some cause) : Fails o files (.settings cause)
  | program {settings : Settings} {e : Error} (hsettings : Configures o files settings)
      (hfound : Finds o files (.error e)) : Fails o files e
  | writing {settings : Settings} {found : Image} {cause : Image.FileError}
      (hsettings : Configures o files settings) (hfound : Finds o files (.ok found))
      (hfile : o.outputFile ≠ "")
      (hsave : Image.save files o.outputFile (withLocals settings found) = .error cause) :
      Fails o files (.writing cause)

/-- The run does not fail before it executes anything: it has its settings and its image, and the
image is saved if it is to be. -/
structure Prepares (o : Options) (files : Files) (settings : Settings) (image : Image)
    (saved : Files) : Prop where
  configures : Configures o files settings
  finds : ∃ found, Finds o files (.ok found) ∧ image = withLocals settings found
  kept : o.outputFile = "" → saved = files
  saves : o.outputFile ≠ "" → Image.save files o.outputFile image = .ok saved

/-- A run that has its settings and its program and is to save nothing leaves the files alone. -/
theorem Prepares.of_unsaved {o : Options} {files : Files} {settings : Settings} {found : Image}
    (hsettings : Configures o files settings) (hfound : Finds o files (.ok found))
    (hfile : o.outputFile = "") :
    Prepares o files settings (withLocals settings found) files :=
  ⟨hsettings, ⟨found, hfound, rfl⟩, fun _ => rfl, fun h => absurd hfile h⟩

section Cases

variable (o : Options) (files : Files)

/-- There is a program, or a reason for there being none. -/
theorem exists_finds : ∃ found, Finds o files found := by
  by_cases hprogram : o.program = ""
  · by_cases hsource : o.sourceFile = ""
    · exact ⟨_, .neither hprogram hsource⟩
    · cases hload : Image.load files o.sourceFile with
      | error cause => exact ⟨_, .unreadable hprogram hsource hload⟩
      | ok image => exact ⟨_, .file hprogram hsource hload⟩
  · by_cases hsource : o.sourceFile = ""
    · cases hname : Program.ofName? o.program o.argument with
      | none => exact ⟨_, .unknown hprogram hsource hname⟩
      | some image => exact ⟨_, .builtIn hprogram hsource hname⟩
    · exact ⟨_, .both hprogram hsource⟩

/-- A run fails before it executes anything, or it does not. -/
theorem fails_or_prepares : (∃ e, Fails o files e) ∨
    ∃ settings image saved, Prepares o files settings image saved := by
  cases hload : Settings.load files o.settingsFile with
  | error cause => exact .inl ⟨_, .settingsFile hload⟩
  | ok loaded =>
    cases hdefect : (o.apply loaded).defect? with
    | some cause => exact .inl ⟨_, .settings hload hdefect⟩
    | none =>
      -- There are settings, so that the program is looked for, and saved if it is there.
      have hsettings : Configures o files (o.apply loaded) := ⟨⟨loaded, hload, rfl⟩, hdefect⟩
      obtain ⟨found, hfound⟩ := exists_finds o files
      cases found with
      | error e => exact .inl ⟨e, .program hsettings hfound⟩
      | ok found =>
        by_cases hfile : o.outputFile = ""
        · exact .inr ⟨_, _, files, .of_unsaved hsettings hfound hfile⟩
        · cases hsave : Image.save files o.outputFile (withLocals (o.apply loaded) found) with
          | error cause => exact .inl ⟨_, .writing hsettings hfound hfile hsave⟩
          | ok saved =>
            exact .inr ⟨_, _, saved, hsettings, ⟨found, hfound, rfl⟩, fun h => absurd h hfile,
              fun _ => hsave⟩

end Cases

/-! ## The run up to its execution -/

section Tasks

variable {o : Options} {session : Session} {settings : Settings} {image : Image} {saved : Files}

/-- The settings that a run goes on with. -/
theorem configure_of_configures (h : Configures o session.files settings) :
    ∃ after, configure o session = .ok settings after ∧ Untouched session after := by
  obtain ⟨⟨loaded, hload, rfl⟩, husable⟩ := h
  exact configure_of_ok hload husable

/-- A task that comes to an outcome and leaves a session. -/
def leaving {α : Type} (outcome : Except Error α) (after : Session) :
    EStateM.Result Error Session α :=
  match outcome with
  | .ok a => .ok a after
  | .error e => .error e after

/-- The program is looked for without a change to files or output. -/
theorem loadImage_of_finds {found : Except Error Image} (h : Finds o session.files found) :
    ∃ after, loadImage o session = leaving found after ∧ Untouched session after := by
  unfold loadImage
  cases h with
  | both hprogram hsource =>
    rw [if_pos hprogram, if_pos hsource]
    exact ⟨session, rfl, rfl, rfl, rfl⟩
  | neither hprogram hsource =>
    rw [if_neg (not_not.2 hprogram), if_neg (not_not.2 hsource)]
    exact ⟨session, rfl, rfl, rfl, rfl⟩
  | unknown hprogram hsource hname =>
    rw [if_pos hprogram, if_neg (not_not.2 hsource), builtIn, hname]
    exact ⟨session, rfl, rfl, rfl, rfl⟩
  | builtIn hprogram hsource hname =>
    rw [if_pos hprogram, if_neg (not_not.2 hsource), builtIn, hname]
    exact ⟨_, rfl, rfl, rfl, rfl⟩
  | unreadable hprogram hsource hload =>
    rw [if_neg (not_not.2 hprogram), if_pos hsource]
    simp only [fromFile, note, bind, EStateM.bind, modify, modifyGet, MonadStateOf.modifyGet,
      EStateM.modifyGet, get, getThe, MonadStateOf.get, EStateM.get, hload]
    exact ⟨_, rfl, rfl, rfl, rfl⟩
  | file hprogram hsource hload =>
    rw [if_neg (not_not.2 hprogram), if_pos hsource]
    simp only [fromFile, note, bind, EStateM.bind, modify, modifyGet, MonadStateOf.modifyGet,
      EStateM.modifyGet, get, getThe, MonadStateOf.get, EStateM.get, hload]
    exact ⟨_, rfl, rfl, rfl, rfl⟩

/-- A run that cannot save its image fails there. -/
theorem saveImage_of_error {cause : Image.FileError} (hfile : o.outputFile ≠ "")
    (hsave : Image.save session.files o.outputFile image = .error cause) :
    saveImage o image session = .error (.writing cause) session := by
  rw [saveImage, if_pos hfile]
  simp only [bind, EStateM.bind, get, getThe, MonadStateOf.get, EStateM.get, hsave]
  rfl

/-- Otherwise it goes on with the files as they are then. -/
theorem saveImage_of_ok (hkept : o.outputFile = "" → saved = session.files)
    (hsaves : o.outputFile ≠ "" → Image.save session.files o.outputFile image = .ok saved) :
    ∃ after, saveImage o image session = .ok () after ∧ after.files = saved ∧
      after.outlet = session.outlet := by
  by_cases hfile : o.outputFile = ""
  · rw [saveImage, if_neg (not_not.2 hfile)]
    exact ⟨session, rfl, (hkept hfile).symm, rfl⟩
  · rw [saveImage, if_pos hfile]
    simp only [bind, EStateM.bind, get, getThe, MonadStateOf.get, EStateM.get, hsaves hfile]
    exact ⟨_, rfl, rfl, rfl⟩

/-- A run that fails leaves files and output alone, whatever instructions it may dispatch. -/
theorem run_of_fails (session : Session) {e : Error} (h : Fails o session.files e) (id : String) :
    ∃ after, (∀ fuel, run fuel id o session = .error e after) ∧ Untouched session after := by
  cases h with
  | settingsFile hload =>
    refine ⟨session, fun fuel => ?_, rfl, rfl, rfl⟩
    simp only [run, bind, EStateM.bind, configure_of_error hload]
  | settings hload hdefect =>
    obtain ⟨after, hconfigure, huntouched⟩ := configure_of_defect hload hdefect
    refine ⟨after, fun fuel => ?_, huntouched⟩
    simp only [run, bind, EStateM.bind, hconfigure]
  | program hsettings hfound =>
    obtain ⟨configured, hconfigure, huntouched⟩ := configure_of_configures hsettings
    rw [← huntouched.files] at hfound
    obtain ⟨after, hload, huntouched'⟩ := loadImage_of_finds hfound
    refine ⟨after, fun fuel => ?_, huntouched.trans huntouched'⟩
    simp only [run, bind, EStateM.bind, hconfigure, hload, leaving]
  | writing hsettings hfound hfile hsave =>
    obtain ⟨configured, hconfigure, huntouched⟩ := configure_of_configures hsettings
    rw [← huntouched.files] at hfound
    obtain ⟨after, hload, huntouched'⟩ := loadImage_of_finds hfound
    rw [← (huntouched.trans huntouched').files] at hsave
    refine ⟨after, fun fuel => ?_, huntouched.trans huntouched'⟩
    simp only [run, bind, EStateM.bind, hconfigure, hload, leaving, saveImage_of_error hfile hsave]

/-- Any other run comes to its execution, or ends before it if nothing is to be executed. Up to
there it has printed the listing. -/
theorem run_of_prepares (session : Session) (h : Prepares o session.files settings image saved)
    (id : String) :
    ∃ ready : Session, ready.files = saved ∧
      ready.outlet = session.outlet.after (o.listed image) ∧ ∀ fuel, run fuel id o session =
        if o.noRun = true then .ok { image } ready else execute fuel id o settings image ready := by
  obtain ⟨hsettings, ⟨found, hfound, rfl⟩, hkept, hsaves⟩ := h
  obtain ⟨configured, hconfigure, huntouched⟩ := configure_of_configures hsettings
  rw [← huntouched.files] at hfound
  obtain ⟨loaded, hload, huntouched'⟩ := loadImage_of_finds hfound
  rw [← (huntouched.trans huntouched').files] at hkept hsaves
  obtain ⟨written, hsave, hfiles, houtlet⟩ := saveImage_of_ok hkept hsaves
  rw [(huntouched.trans huntouched').outlet] at houtlet
  obtain ⟨listed, hlist, hfiles', houtlet'⟩ := gives_list o (withLocals settings found) written
  rw [houtlet] at houtlet'
  refine ⟨listed, hfiles'.trans hfiles, houtlet', fun fuel => ?_⟩
  simp only [run, bind, EStateM.bind, hconfigure, hload, leaving, hsave, hlist]
  split
  · rfl
  · rfl

end Tasks

/-! ## Reports -/

/-- The run returns with a report: more instructions would not change it. -/
def Returns (id : String) (o : Options) (session : Session) (r : Report) : Prop :=
  ∃ fuel, ∀ more, report (fuel + more) id o session = r

section Reports

variable {o : Options} {session : Session} {settings : Settings} {image : Image} {saved : Files}
  {fuel k : Nat} {id : String}

/-- The report on a run. -/
theorem report_of_run {outcome : Except Error Result} {after : Session}
    (h : run fuel id o (session.fresh o.out) = leaving outcome after) :
    report fuel id o session = ⟨outcome, after⟩ := by
  unfold report
  rw [h]
  cases outcome with
  | ok result => rfl
  | error e => rfl

/-- The report on a run that fails before it executes anything. -/
theorem report_of_fails {e : Error} (h : Fails o session.files e) (id : String) :
    ∃ after : Session, (∀ fuel, report fuel id o session = ⟨.error e, after⟩) ∧
      after.files = session.files ∧ after.out = "" ∧ after.outlet = o.out := by
  obtain ⟨after, hrun, huntouched⟩ := run_of_fails (session.fresh o.out) h id
  exact ⟨after, fun fuel => report_of_run (hrun fuel), huntouched.files, huntouched.out,
    huntouched.outlet⟩

/-- The report on a run that is not to execute anything. -/
theorem report_of_noRun (h : Prepares o session.files settings image saved)
    (hnoRun : o.noRun = true) (id : String) :
    ∃ after : Session, after.files = saved ∧
      ∀ fuel, report fuel id o session = ⟨.ok { image }, after⟩ := by
  obtain ⟨ready, hfiles, -, hrun⟩ := run_of_prepares (session.fresh o.out) h id
  refine ⟨ready, hfiles, fun fuel => report_of_run ?_⟩
  rw [hrun, if_pos hnoRun]
  rfl

/-- The report on a run that executes its image. -/
theorem report_of_executed (h : Prepares o session.files settings image saved)
    (hnoRun : o.noRun = false) (id : String) (fuel : Nat) :
    ∃ after : Session, after.files = saved ∧
      report fuel id o session = ⟨.ok (.ofMachine image
        (Machine.step^[fuel] (o.start settings image o.out))), after⟩ := by
  obtain ⟨ready, hfiles, houtlet, hrun⟩ := run_of_prepares (session.fresh o.out) h id
  obtain ⟨after, hexecute, hkept, -⟩ := gives_execute fuel id o settings image ready
  rw [houtlet, Outlet.after_after] at hexecute
  refine ⟨after, hkept.trans hfiles, report_of_run ?_⟩
  rw [hrun, hnoRun, if_neg Bool.false_ne_true, hexecute, Machine.run_eq_iterate]
  rfl

/-- Two numbers of instructions are the same to a machine that has stopped within both, traced or
not. -/
theorem runTracing_of_stopped {start : Machine}
    (hstop : (Machine.step^[k] start).status ≠ .running) (more : Nat) (trace : Bool) :
    runTracing trace (k + more) start = runTracing trace k start := by
  have hle : k ≤ k + more := Nat.le_add_right k more
  have htraced : start.runTraced (k + more) #[] = start.runTraced k #[] := by
    rw [Machine.runTraced_eq, Machine.runTraced_eq, Machine.iterate_of_stopped hstop hle,
      Machine.trace_of_stopped hstop hle]
  have hrun : start.run (k + more) = start.run k := by
    rw [← Machine.runTraced_fst _ _ #[], htraced, Machine.runTraced_fst]
  rw [runTracing, runTracing, htraced, hrun]

/-- So they are to an execution of its image. -/
theorem execute_of_stopped {s : Settings} {more : Nat}
    (hstop : (Machine.step^[k] (machine s image (session.outlet.after o.headings))).status ≠
      .running) :
    execute (k + more) id o s image session = execute k id o s image session := by
  obtain ⟨announced, hannounce, -, houtlet⟩ := gives_announce id o s image session
  rw [← houtlet] at hstop
  have hran := runTracing_of_stopped hstop more s.trace
  have hmachine : runMachine (k + more) id s image announced =
      runMachine k id s image announced := by
    simp only [runMachine, bind, EStateM.bind, get, getThe, MonadStateOf.get, EStateM.get, hran]
  simp only [execute, bind, EStateM.bind, hannounce, hmachine]

/-- A run whose machine has stopped returns. -/
theorem returns_of_stopped (h : Prepares o session.files settings image saved) (id : String)
    (hstop : (Machine.step^[k] (o.start settings image o.out)).status ≠ .running) :
    Returns id o session (report k id o session) := by
  obtain ⟨ready, -, houtlet, hrun⟩ := run_of_prepares (session.fresh o.out) h id
  have hready : (Machine.step^[k] (machine settings image
      (ready.outlet.after o.headings))).status ≠ .running := by
    rwa [houtlet, Outlet.after_after]
  refine ⟨k, fun more => ?_⟩
  unfold report
  rw [hrun, hrun, execute_of_stopped hready]

/-- A run that executes its image and returns has stopped its machine: if it were still running,
then one instruction more would have been counted. -/
theorem stopped_of_returns {r : Report} (h : Prepares o session.files settings image saved)
    (hnoRun : o.noRun = false) (hreturns : Returns id o session r) :
    ∃ k after, (Machine.step^[k] (o.start settings image o.out)).status ≠ .running ∧
      after.files = saved ∧ r = ⟨.ok (.ofMachine image
        (Machine.step^[k] (o.start settings image o.out))), after⟩ := by
  obtain ⟨k, hsame⟩ := hreturns
  obtain ⟨after, hfiles, hreport⟩ := report_of_executed h hnoRun id k
  obtain ⟨after', -, hreport'⟩ := report_of_executed h hnoRun id (k + 1)
  have hr : r = ⟨.ok (.ofMachine image
      (Machine.step^[k] (o.start settings image o.out))), after⟩ :=
    (hsame 0).symm.trans hreport
  refine ⟨k, after, fun hrunning => ?_, hfiles, hr⟩
  -- Both results are the same, and with them the machine's state, so that it still runs after one
  -- instruction more; but then that one was counted.
  rw [← hsame 1, hreport'] at hr
  have hresult := Except.ok.inj (congrArg Report.outcome hr)
  have hstatus := congrArg Result.status hresult
  have hsteps := congrArg Result.steps hresult
  dsimp only [Result.ofMachine] at hstatus hsteps
  rw [Machine.steps_of_running hrunning,
    Machine.steps_of_running (hstatus.trans hrunning)] at hsteps
  omega

end Reports

/-! ## Endings -/

/-- The ways in which a run can end. -/
inductive Ending where
  /-- There is no result. -/
  | refused
  /-- There is a result and no failure. -/
  | finished
  /-- There is a result, and the program faulted. -/
  | faulted
  deriving DecidableEq, Repr

/-- The ending of a run, by what it leaves. -/
def Report.ending (r : Report) : Ending :=
  match r.result?, r.failure? with
  | none, _ => .refused
  | some _, none => .finished
  | some _, some _ => .faulted

/-- The run failed with `e` before it executed anything, and changed and printed nothing. -/
structure Refused (id : String) (o : Options) (session : Session) (r : Report) (e : Error) :
    Prop where
  result_eq : r.result? = none
  failure_eq : r.failure? = some (.error e)
  cause : Fails o session.files e
  /-- The report is the same if no instruction may be dispatched. -/
  unexecuted : ∀ fuel, report fuel id o session = r
  out : r.session.out = ""
  /-- Nothing was written that was refused, either. -/
  outlet : r.session.outlet = o.out
  files : r.session.files = session.files

/-- Between the two states of the files, nothing changed but the file to save to, if there is one,
and it holds the image in the format of its path. -/
structure SavesOnly (o : Options) (image : Image) (before after : Files) : Prop where
  kept : o.outputFile = "" → after = before
  saved : o.outputFile ≠ "" → ∃ format place, Image.Format.ofPath? o.outputFile = some format ∧
    before.locate o.outputFile = .ok place ∧
    after.read o.outputFile = .ok (image.write format) ∧
    ∀ other, other ≠ place → after.get? other = before.get? other

/-- The run has a result for the image that it was asked for, with its settings. -/
structure Delivers (o : Options) (session : Session) (r : Report) (settings : Settings)
    (result : Result) : Prop where
  result_eq : r.result? = some result
  configures : Configures o session.files settings
  finds : ∃ found, Finds o session.files (.ok found) ∧ result.image = withLocals settings found
  saves : SavesOnly o result.image session.files r.session.files

/-- The result is what the machine of its image answers to a run. -/
def Executed (o : Options) (settings : Settings) (result : Result) : Prop :=
  ∃ events m, Answers .run (o.start settings result.image o.out)
    (.outcome result.status events) m ∧ result = .ofMachine result.image m

/-- The machine comes to a halt instruction while it is running. -/
def ReachesHalt (start : Machine) : Prop :=
  ∃ k, (Machine.step^[k] start).status = .running ∧
    (Machine.step^[k] start).opcode? = some .halt

/-- What an ending says of a run. -/
def Ending.Describes (id : String) (o : Options) (session : Session) (r : Report) : Ending → Prop
  | .refused => ∃ e, Refused id o session r e
  | .finished => ∃ settings result, Delivers o session r settings result ∧ r.failure? = none ∧
      result.status.fault? = none ∧
      ((o.noRun = true ∧ result.status = .running ∧ result.steps = 0 ∧ result.stack = []) ∨
        (o.noRun = false ∧ result.status = .halted ∧ Executed o settings result ∧
          ReachesHalt (o.start settings result.image o.out)))
  | .faulted => ∃ settings result fault, Delivers o session r settings result ∧ o.noRun = false ∧
      r.failure? = some (.fault fault) ∧ r.failure?.map Failure.kind = some fault.kind ∧
      result.status = .faulted fault ∧ Executed o settings result

section Endings

variable {o : Options} {session : Session} {settings : Settings} {image : Image}
  {before after saved : Files} {r : Report} {id : String}

/-- A run that has executed an image fails with the fault of the machine, if there is one. -/
theorem failure?_ofMachine (image : Image) (m : Machine) (left : Session) :
    (Report.mk (.ok (.ofMachine image m)) left).failure? = m.status.fault?.map .fault := rfl

/-- The ending that describes a run can be read off its report. -/
theorem Ending.Describes.ending_eq {ending : Ending} (h : ending.Describes id o session r) :
    r.ending = ending := by
  unfold Report.ending
  cases ending with
  | refused =>
    obtain ⟨e, hrefused⟩ := h
    rw [hrefused.result_eq]
  | finished =>
    obtain ⟨settings, result, hdelivers, hfailure, -⟩ := h
    rw [hdelivers.result_eq, hfailure]
  | faulted =>
    obtain ⟨settings, result, fault, hdelivers, -, hfailure, -⟩ := h
    rw [hdelivers.result_eq, hfailure]

/-- What saving an image changes. -/
theorem SavesOnly.of_save (hkept : o.outputFile = "" → after = before)
    (hsaves : o.outputFile ≠ "" → Image.save before o.outputFile image = .ok after) :
    SavesOnly o image before after := by
  refine ⟨hkept, fun hfile => ?_⟩
  have hsave := hsaves hfile
  unfold Image.save at hsave
  cases hformat : Image.Format.ofPath? o.outputFile with
  | none =>
    rw [hformat] at hsave
    cases hsave
  | some format =>
    rw [hformat] at hsave
    dsimp only at hsave
    cases hwrite : before.write o.outputFile (image.write format) with
    | error cause =>
      rw [hwrite] at hsave
      cases hsave
    | ok written =>
      rw [hwrite] at hsave
      cases hsave
      obtain ⟨place, hlocate, -, hput⟩ := Files.write_eq_ok hwrite
      refine ⟨format, place, rfl, hlocate, Files.read_of_write hwrite, fun other hother => ?_⟩
      rw [hput]
      exact Files.get?_put_of_ne _ hother

/-- A run that comes to a result delivers it. -/
theorem Prepares.delivers (h : Prepares o session.files settings image saved) {left : Session}
    (result : Result) (himage : result.image = image)
    (hfiles : left.files = saved) : Delivers o session ⟨.ok result, left⟩ settings result := by
  subst himage hfiles
  exact ⟨rfl, h.configures, h.finds, .of_save h.kept h.saves⟩

/-- A machine that has halted came to a halt instruction. -/
theorem reachesHalt_of_halted {start : Machine} {k : Nat} (hnew : start.Reachable)
    (hrun : start.status = .running) (hhalted : (Machine.step^[k] start).status = .halted) :
    ReachesHalt start := by
  induction k with
  | zero =>
    rw [Function.iterate_zero_apply, hrun] at hhalted
    cases hhalted
  | succ k ih =>
    cases hstatus : (Machine.step^[k] start).status with
    | halted => exact ih hstatus
    | faulted fault =>
      rw [Machine.faulted_iterate hstatus (Nat.le_succ k)] at hhalted
      cases hhalted
    | running =>
      -- The last step is the one that halts.
      rw [Function.iterate_succ_apply'] at hhalted
      exact ⟨k, hstatus, Machine.opcode?_of_halted (hnew.iterate k).bounded hstatus hhalted⟩

/-- A run that fails before it executes anything is refused. -/
theorem describes_of_fails {e : Error} (h : Fails o session.files e)
    (hreturns : Returns id o session r) : Ending.refused.Describes id o session r := by
  obtain ⟨after, hreport, hfiles, hout, houtlet⟩ := report_of_fails h id
  obtain ⟨fuel, hsame⟩ := hreturns
  obtain rfl : r = ⟨.error e, after⟩ := (hsame 0).symm.trans (hreport _)
  exact ⟨e, rfl, rfl, h, hreport, hout, houtlet, hfiles⟩

/-- A run that is not to execute anything finishes. -/
theorem describes_of_noRun (h : Prepares o session.files settings image saved)
    (hnoRun : o.noRun = true) (hreturns : Returns id o session r) :
    Ending.finished.Describes id o session r := by
  obtain ⟨after, hfiles, hreport⟩ := report_of_noRun h hnoRun id
  obtain ⟨fuel, hsame⟩ := hreturns
  obtain rfl : r = ⟨.ok { image }, after⟩ := (hsame 0).symm.trans (hreport _)
  exact ⟨settings, { image }, h.delivers _ rfl hfiles, rfl, rfl, .inl ⟨hnoRun, rfl, rfl, rfl⟩⟩

/-- Any other run finishes or faults, as its machine halts or faults. -/
theorem describes_of_executed (h : Prepares o session.files settings image saved)
    (hnoRun : o.noRun = false) (hreturns : Returns id o session r) :
    Ending.finished.Describes id o session r ∨ Ending.faulted.Describes id o session r := by
  obtain ⟨k, after, hstop, hfiles, rfl⟩ := stopped_of_returns h hnoRun hreturns
  have hdelivers := h.delivers (.ofMachine image
    (Machine.step^[k] (o.start settings image o.out))) rfl hfiles
  obtain ⟨events, hanswer⟩ := Machine.answers_of_iterate rfl hstop
  have hexecuted : Executed o settings (.ofMachine image
      (Machine.step^[k] (o.start settings image o.out))) := ⟨events, _, hanswer, rfl⟩
  have hfailure := failure?_ofMachine image
    (Machine.step^[k] (o.start settings image o.out)) after
  cases hstatus : (Machine.step^[k] (o.start settings image o.out)).status with
  | running => exact absurd hstatus hstop
  | halted =>
    left
    have hreaches := reachesHalt_of_halted (Machine.reachable_new _ _ _ _) rfl hstatus
    rw [hstatus] at hfailure
    exact ⟨settings, _, hdelivers, hfailure, congrArg Status.fault? hstatus,
      .inr ⟨hnoRun, hstatus, hexecuted, hreaches⟩⟩
  | faulted fault =>
    right
    rw [hstatus] at hfailure
    have hkind := congrArg (Option.map Failure.kind) hfailure
    exact ⟨settings, _, fault, hdelivers, hnoRun, hfailure, hkind, hstatus, hexecuted⟩

end Endings

/-- A run that returns has exactly one of three endings, whatever its outlet takes. It is refused,
with an error and without a result, because it did not get its settings or its program or could not
save the image; then nothing was executed, printed or changed. It finishes with a result and no
failure, because nothing was to be executed or the program came to a halt. Or the program faulted,
and the run has a result and fails with the machine's own fault. In the last two cases the image of
the result is the one asked for, and no file changes but the one to save it to. Only a run whose
program never stops does not return. -/
theorem run_has_one_ending (id : String) (o : Options) (session : Session) :
    (∀ r, Returns id o session r → ∃! ending : Ending, ending.Describes id o session r) ∧
    ((∀ r, ¬ Returns id o session r) ↔ o.noRun = false ∧
      ∃ settings image saved, Prepares o session.files settings image saved ∧
        ∀ k, (Machine.step^[k] (o.start settings image o.out)).status = .running) := by
  constructor
  · intro r hreturns
    have hexists : ∃ ending : Ending, ending.Describes id o session r := by
      rcases fails_or_prepares o session.files with
        ⟨e, hfails⟩ | ⟨settings, image, saved, hprepares⟩
      · exact ⟨_, describes_of_fails hfails hreturns⟩
      cases hnoRun : o.noRun with
      | true => exact ⟨_, describes_of_noRun hprepares hnoRun hreturns⟩
      | false =>
        rcases describes_of_executed hprepares hnoRun hreturns with hfinished | hfaulted
        · exact ⟨_, hfinished⟩
        · exact ⟨_, hfaulted⟩
    obtain ⟨ending, hdescribes⟩ := hexists
    -- The report itself tells the endings apart.
    exact ⟨ending, hdescribes, fun other hother => hother.ending_eq.symm.trans hdescribes.ending_eq⟩
  · constructor
    · -- A run that fails, or is not to execute anything, has the same report at every number of
      -- instructions; any other has one once its machine has stopped.
      intro hnever
      rcases fails_or_prepares o session.files with
        ⟨e, hfails⟩ | ⟨settings, image, saved, hprepares⟩
      · obtain ⟨after, hreport, -⟩ := report_of_fails hfails id
        exact absurd ⟨0, fun _ => hreport _⟩ (hnever _)
      cases hnoRun : o.noRun with
      | true =>
        obtain ⟨after, -, hreport⟩ := report_of_noRun hprepares hnoRun id
        exact absurd ⟨0, fun _ => hreport _⟩ (hnever _)
      | false =>
        refine ⟨rfl, settings, image, saved, hprepares, fun k => ?_⟩
        by_contra hstop
        exact hnever _ (returns_of_stopped hprepares id hstop)
    · rintro ⟨hnoRun, settings, image, saved, hprepares, hrunning⟩ r hreturns
      obtain ⟨k, -, hstop, -⟩ := stopped_of_returns hprepares hnoRun hreturns
      exact hstop (hrunning k)

/-- The settings of a file that says nothing are the default ones. -/
theorem load_of_empty :
    Settings.load { entries := [(["a"], .file [])] } "a" = .ok { path := "a" } :=
  eq_ok_of_toOption (by decide +kernel)

/-- An outlet takes three of the six lines of a listing. The program cannot print its sum then, so
that the run ends with the machine's fault, and in no other way. -/
theorem run_has_one_ending_full :
    let o : Options :=
      { settingsFile := "a", program := "add", argument := 3, disassemble := true
        out := { room := some 3, complaint := "disk full" } }
    let session : Session := { files := { entries := [(["a"], .file [])] } }
    ∃ r, Returns "" o session r ∧
      r.session.out = "== add ==\n0000 CONST  3\n0002 CONST  3\n" ∧
      r.failure?.map Failure.kind = some .outputFailure ∧
      (∃! ending : Ending, ending.Describes "" o session r) ∧
      Ending.faulted.Describes "" o session r := by
  intro o session
  have hprepares : Prepares o session.files (o.apply { path := "a" }) (Program.add 3 3)
      session.files :=
    .of_unsaved ⟨⟨_, load_of_empty, rfl⟩, by decide⟩ (.builtIn (by decide) rfl rfl) rfl
  have hstop : (Machine.step^[4] (o.start (o.apply { path := "a" }) (Program.add 3 3) o.out)).status
      ≠ .running := by decide +kernel
  have hreturns := returns_of_stopped hprepares "" hstop
  have hending : (report 4 "" o session).ending = .faulted := by decide +kernel
  obtain ⟨ending, hdescribes, hunique⟩ := (run_has_one_ending "" o session).1 _ hreturns
  obtain rfl : ending = .faulted := hdescribes.ending_eq.symm.trans hending
  exact ⟨_, hreturns, by decide +kernel, by decide +kernel, ⟨_, hdescribes, hunique⟩, hdescribes⟩

end Runner

end StackMachine
