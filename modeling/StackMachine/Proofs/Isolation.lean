import StackMachine.Proofs.Outcome

/-!
# Runs one after another

The colour switch outlives a run, so that a run could in principle show what an earlier one did to
it. It does not: a run sets the switch as soon as it has loaded its settings, before anything looks
at it (`configure_recolored`), and fails at once if it cannot load them. All that is left of the
surroundings in a report are then the files and the environment, and of the identifier of the run
its entries in the log. The outlet is no part of the surroundings: each run has that of its options.
`Steady` says so of the parts of a run behind its configuration, and `report_eq` of whole runs.
-/

namespace StackMachine

/-! ## Records of another run -/

/-- A pair of a record that names a run, with another identifier in place of its own. -/
def Record.rename (id : String) (pair : String × String) : String × String :=
  (pair.1, if pair.1 = "run" then id else pair.2)

/-- The record under another run identifier. -/
def Record.withRun (id : String) (r : Record) : Record :=
  { r with pairs := r.pairs.map (Record.rename id) }

namespace Runner

variable {α β : Type} {id id' : String}

/-- The session with its records under another run identifier. -/
def Session.withRun (id : String) (session : Session) : Session :=
  { session with log := session.log.map (Record.withRun id) }

/-- The files are not a matter of the records. -/
@[simp]
theorem Session.files_withRun (id : String) (session : Session) :
    (session.withRun id).files = session.files := rfl

/-- What a task comes to, under another run identifier. -/
def renamed (id : String) : EStateM.Result Error Session α → EStateM.Result Error Session α
  | .ok a after => .ok a (after.withRun id)
  | .error e after => .error e (after.withRun id)

/-- The session that a task leaves. -/
def left : EStateM.Result Error Session α → Session
  | .ok _ after => after
  | .error _ after => after

/-- `t'` does what `t` does, under another run identifier. -/
def Renames (id : String) (t t' : Task α) : Prop :=
  ∀ session : Session, t' (session.withRun id) = renamed id (t session)

/-- Besides, `t` leaves the colour switch and the environment alone. -/
structure Steady (id : String) (t t' : Task α) : Prop where
  renames : Renames id t t'
  palette_eq : ∀ session, (left (t session)).palette = session.palette
  environment_eq : ∀ session, (left (t session)).environment = session.environment

section Steady

variable {t t' : Task α} {f f' : α → Task β}

/-- One task after another, under another identifier. -/
theorem Renames.bind (h : Renames id t t') (hf : ∀ a, Renames id (f a) (f' a)) :
    Renames id (t >>= f) (t' >>= f') := by
  intro session
  simp only [Bind.bind, EStateM.bind, h session]
  cases t session with
  | ok a after => exact hf a after
  | error e after => rfl

/-- What a task leaves of the session in front of another. -/
theorem left_bind {γ : Type} (look : Session → γ)
    (h : ∀ session, look (left (t session)) = look session)
    (hf : ∀ a session, look (left (f a session)) = look session) (session : Session) :
    look (left ((t >>= f) session)) = look session := by
  have hfirst := h session
  simp only [Bind.bind, EStateM.bind]
  -- Where the first task fails it is the last, and what it leaves is what both leave.
  cases ht : t session with
  | ok a after =>
    rw [ht] at hfirst
    exact (hf a after).trans hfirst
  | error e after =>
    rw [ht] at hfirst
    exact hfirst

/-- One task after another. -/
theorem Steady.bind (h : Steady id t t') (hf : ∀ a, Steady id (f a) (f' a)) :
    Steady id (t >>= f) (t' >>= f') where
  renames := h.renames.bind fun a => (hf a).renames
  palette_eq := left_bind Session.palette h.palette_eq fun a => (hf a).palette_eq
  environment_eq := left_bind Session.environment h.environment_eq fun a => (hf a).environment_eq

/-- A task that is done or left out. -/
theorem renames_when {c : Prop} [Decidable c] {t t' : Task Unit} {f f' : Unit → Task β}
    (h : Renames id t t') (hf : ∀ a, Renames id (f a) (f' a)) :
    Renames id (if c then t >>= f else f ()) (if c then t' >>= f' else f' ()) := by
  split
  · exact h.bind hf
  · exact hf ()

/-- A task that is done or left out, with the switch and the environment left alone. -/
theorem steady_when {c : Prop} [Decidable c] {t t' : Task Unit} {f f' : Unit → Task β}
    (h : Steady id t t') (hf : ∀ a, Steady id (f a) (f' a)) :
    Steady id (if c then t >>= f else f ()) (if c then t' >>= f' else f' ()) := by
  split
  · exact h.bind hf
  · exact hf ()

/-- Giving a value at once. -/
theorem steady_pure (a : α) : Steady id (pure a) (pure a) :=
  ⟨fun _ => rfl, fun _ => rfl, fun _ => rfl⟩

/-- Failing at once. -/
theorem steady_throw (e : Error) : Steady id (throw e : Task α) (throw e) :=
  ⟨fun _ => rfl, fun _ => rfl, fun _ => rfl⟩

/-- Printing a line. -/
theorem steady_printLine (text : String) : Steady id (printLine text) (printLine text) :=
  ⟨fun _ => rfl, fun _ => rfl, fun _ => rfl⟩

/-- Printing lines. -/
theorem steady_printLines (lines : List String) :
    Steady id (printLines lines) (printLines lines) := by
  induction lines with
  | nil => exact steady_pure ()
  | cons line lines ih => exact (steady_printLine line).bind fun _ => ih

/-- Printing a heading. -/
theorem steady_heading (title : String) : Steady id (heading title) (heading title) :=
  ⟨fun _ => rfl, fun _ => rfl, fun _ => rfl⟩

/-- Adding one record. -/
theorem steady_note (level : Level) (message : String) {pairs pairs' : List (String × String)}
    (h : pairs.map (Record.rename id) = pairs') :
    Steady id (note level message pairs) (note level message pairs') := by
  refine ⟨fun session => ?_, fun _ => rfl, fun _ => rfl⟩
  subst h
  simp [note, modify, modifyGet, MonadStateOf.modifyGet, EStateM.modifyGet, renamed,
    Session.withRun, Record.withRun]

/-- Looking at the session, apart from its records. -/
theorem renames_get {f f' : Session → Task α}
    (hlook : ∀ session : Session, f' (session.withRun id) = f' session)
    (h : ∀ session, Renames id (f session) (f' session)) :
    Renames id (get >>= f) (get >>= f') := by
  intro session
  show f' (session.withRun id) (session.withRun id) = renamed id (f session session)
  -- What is looked at is the same in both sessions, so only the records are renamed.
  rw [hlook]
  exact h session session

/-- Looking at the session, with the switch and the environment left alone. -/
theorem steady_get {f f' : Session → Task α}
    (hlook : ∀ session : Session, f' (session.withRun id) = f' session)
    (h : ∀ session, Steady id (f session) (f' session)) :
    Steady id (get >>= f) (get >>= f') where
  renames := renames_get hlook fun session => (h session).renames
  palette_eq session := (h session).palette_eq session
  environment_eq session := (h session).environment_eq session

end Steady

/-! ## The parts of a run -/

/-- Looking for the program. -/
theorem steady_loadImage (id : String) (o : Options) : Steady id (loadImage o) (loadImage o) := by
  unfold loadImage
  split
  · split
    · exact steady_throw _
    · unfold builtIn
      split
      · exact steady_throw _
      · exact (steady_note _ _ rfl).bind fun _ => steady_pure _
  · split
    · unfold fromFile
      refine (steady_note _ _ rfl).bind fun _ => steady_get (fun session => ?_) fun session => ?_
      · rw [Session.files_withRun]
      split
      · exact steady_pure _
      · exact steady_throw _
    · exact steady_throw _

/-- Saving the image. -/
theorem steady_saveImage (id : String) (o : Options) (image : Image) :
    Steady id (saveImage o image) (saveImage o image) := by
  unfold saveImage
  split
  · refine steady_get (fun session => ?_) fun session => ?_
    · rw [Session.files_withRun]
    split
    · exact steady_throw _
    · -- The record of a saved image does not name the run.
      refine Steady.bind ⟨fun _ => rfl, fun _ => rfl, fun _ => rfl⟩ fun _ => steady_note _ _ ?_
      simp [Record.rename]
  · exact steady_pure _

/-- Listing the image. -/
theorem steady_list (id : String) (o : Options) (image : Image) :
    Steady id (list o image) (list o image) := by
  unfold list
  split
  · refine steady_when (steady_heading _) fun _ => ?_
    exact steady_get (fun _ => rfl) fun _ => steady_printLines _
  · exact steady_pure _

/-- Announcing the execution, which is where the identifier is logged first. -/
theorem steady_announce (id id' : String) (o : Options) (s : Settings) (image : Image) :
    Steady id' (announce id o s image) (announce id' o s image) := by
  refine (steady_note _ _ rfl).bind fun _ => ?_
  split
  · exact steady_heading _
  · exact steady_pure ()

/-- Running the machine. The record of an instruction names the run first. -/
theorem steady_runMachine (fuel : Nat) (id id' : String) (s : Settings) (image : Image) :
    Steady id' (runMachine fuel id s image) (runMachine fuel id' s image) := by
  refine steady_get (fun _ => rfl) fun session => ?_
  dsimp only
  -- The machine does not know the identifier, so what it comes to is the same in both runs.
  generalize runTracing s.trace fuel (machine s image session.outlet) = ran
  refine Steady.bind ⟨fun session => ?_, fun _ => rfl, fun _ => rfl⟩ fun _ => steady_pure _
  have hrecords : (ran.2.map (traceRecord (context id image))).map (Record.withRun id') =
      ran.2.map (traceRecord (context id' image)) := by
    rw [Array.map_map]
    rfl
  simp [modify, modifyGet, MonadStateOf.modifyGet, EStateM.modifyGet, renamed, Session.withRun,
    hrecords]

/-- Printing a stack. -/
theorem steady_dump (stack : List Int64) : Steady id (dump stack) (dump stack) :=
  (steady_heading _).bind fun _ => steady_get (fun _ => rfl) fun _ => steady_printLines _

/-- Recording the end. -/
theorem steady_recordEnd (id id' : String) (image : Image) (m : Machine) :
    Steady id' (recordEnd id image m) (recordEnd id' image m) := by
  unfold recordEnd
  split
  · exact steady_note _ _ rfl
  · exact steady_note _ _ rfl
  · exact steady_pure ()

/-- Executing the image. -/
theorem steady_execute (fuel : Nat) (id id' : String) (o : Options) (s : Settings) (image : Image) :
    Steady id' (execute fuel id o s image) (execute fuel id' o s image) := by
  refine (steady_announce id id' o s image).bind fun _ => ?_
  refine (steady_runMachine fuel id id' s image).bind fun m => ?_
  refine steady_when (steady_dump _) fun _ => ?_
  exact (steady_recordEnd id id' image m).bind fun _ => steady_pure _

/-! ## The switch -/

section Switch

variable {o : Options} {session : Session} {loaded : Settings}

/-- The switch by the options, the settings and the environment. -/
def Options.palette (o : Options) (loaded : Settings) (env : Environment) : Palette where
  enabled := !o.noColor && loaded.color && env.wantsColor

/-- Once the settings are loaded, nothing depends on how the switch was. -/
theorem configure_recolored (session : Session)
    (hload : Settings.load session.files o.settingsFile = .ok loaded) (palette : Palette) :
    configure o { session with palette } = configure o session := by
  simp only [configure, bind, EStateM.bind, get, getThe, MonadStateOf.get, EStateM.get, hload]
  split
  · rfl
  · rfl

/-- Then the switch is set, whether the settings can be used or not. -/
theorem palette_configure (hload : Settings.load session.files o.settingsFile = .ok loaded) :
    (left (configure o session)).palette = o.palette loaded session.environment ∧
      (left (configure o session)).environment = session.environment := by
  simp only [configure, bind, EStateM.bind, get, getThe, MonadStateOf.get, EStateM.get, hload]
  -- The switch is set before the settings are checked.
  cases hdefect : (o.apply loaded).defect? with
  | none =>
    split
    · exact ⟨rfl, rfl⟩
    · exact ⟨rfl, rfl⟩
  | some cause =>
    split
    · exact ⟨rfl, rfl⟩
    · exact ⟨rfl, rfl⟩

/-- What is logged of the settings does not name the run. -/
theorem renames_configure (id : String) (o : Options) :
    Renames id (configure o) (configure o) := by
  unfold configure
  refine renames_get (fun session => ?_) fun session => ?_
  · rw [Session.files_withRun]
  cases Settings.load session.files o.settingsFile with
  | error cause => exact (steady_throw _).renames
  | ok loaded =>
    refine renames_when (steady_note _ _ rfl).renames fun _ => ?_
    -- Setting the switch is no matter of the records.
    refine Renames.bind (fun _ => rfl) fun _ => ?_
    cases (o.apply loaded).defect? with
    | some cause => exact (steady_throw _).renames
    | none =>
      refine renames_get (fun _ => rfl) fun _ => ?_
      exact ((steady_note _ _ rfl).bind fun _ => steady_pure _).renames

end Switch

/-! ## Whole runs -/

/-- What a run does behind its configuration. -/
def conclude (fuel : Nat) (id : String) (o : Options) (settings : Settings) : Task Result := do
  let loaded ← loadImage o
  finish fuel id o settings (withLocals settings loaded)

/-- A run configures itself and concludes. -/
theorem run_eq_conclude (fuel : Nat) (id : String) (o : Options) :
    run fuel id o = configure o >>= conclude fuel id o := rfl

/-- Behind its configuration a run leaves the switch alone. -/
theorem steady_conclude (fuel : Nat) (id id' : String) (o : Options) (settings : Settings) :
    Steady id' (conclude fuel id o settings) (conclude fuel id' o settings) := by
  refine (steady_loadImage id' o).bind fun loaded => ?_
  unfold finish
  refine (steady_saveImage id' o _).bind fun _ => (steady_list id' o _).bind fun _ => ?_
  split
  · exact steady_pure _
  · exact steady_execute fuel id id' o settings _

section Reports

variable {fuel : Nat} {o : Options} {session session' : Session}

/-- The identifier of a run shows in its records and nowhere else. -/
theorem renames_run (fuel : Nat) (id id' : String) (o : Options) :
    Renames id' (run fuel id o) (run fuel id' o) := by
  rw [run_eq_conclude, run_eq_conclude]
  exact (renames_configure id' o).bind fun settings =>
    (steady_conclude fuel id id' o settings).renames

/-- The switch after a run: it is set if the settings can be loaded, and left alone otherwise. -/
def Options.paletteAfter (o : Options) (session : Session) : Palette :=
  match Settings.load session.files o.settingsFile with
  | .ok loaded => o.palette loaded session.environment
  | .error _ => session.palette

/-- What a run leaves of the switch and the environment. -/
theorem palette_run (fuel : Nat) (id : String) (o : Options) (session : Session) :
    (left (run fuel id o session)).palette = o.paletteAfter session ∧
      (left (run fuel id o session)).environment = session.environment := by
  rw [run_eq_conclude]
  unfold Options.paletteAfter
  simp only [Bind.bind, EStateM.bind]
  cases hload : Settings.load session.files o.settingsFile with
  | error cause =>
    rw [configure_of_error hload]
    exact ⟨rfl, rfl⟩
  | ok loaded =>
    obtain ⟨hpalette, henvironment⟩ := palette_configure hload
    cases hconfigure : configure o session with
    | error e after =>
      rw [hconfigure] at hpalette henvironment
      exact ⟨hpalette, henvironment⟩
    | ok settings after =>
      rw [hconfigure] at hpalette henvironment
      have hsteady := steady_conclude fuel id id o settings
      exact ⟨(hsteady.palette_eq after).trans hpalette,
        (hsteady.environment_eq after).trans henvironment⟩

/-- A report holds what the run comes to and the session that it leaves. -/
theorem session_report (fuel : Nat) (id : String) (o : Options) (session : Session) :
    (report fuel id o session).session =
      left (run fuel id o (session.fresh o.out)) := by
  unfold report
  cases run fuel id o (session.fresh o.out) with
  | ok result after => rfl
  | error e after => rfl

/-- Two sessions with the same files and the same environment. -/
structure Resembles (session session' : Session) : Prop where
  files_eq : session'.files = session.files
  environment_eq : session'.environment = session.environment

/-- At the start of a run they differ in the switch alone. -/
theorem Resembles.fresh_eq (h : Resembles session session') (out : Outlet) :
    session'.fresh out = { session.fresh out with palette := session'.palette } := by
  unfold Session.fresh
  rw [h.files_eq, h.environment_eq]

/-- There are no records at the start of a run. -/
theorem Session.withRun_fresh (id : String) (session : Session) (out : Outlet) :
    (session.fresh out).withRun id = session.fresh out := by
  rw [Session.withRun, Session.fresh, Array.map_empty]

/-- The report under another run identifier and with another switch. -/
def Report.revised (r : Report) (id : String) (palette : Palette) : Report :=
  { r with session := { r.session.withRun id with palette } }

/-- Another identifier shows in the records of the report. -/
theorem report_renamed (fuel : Nat) (id id' : String) (o : Options) (session : Session) :
    report fuel id' o session =
      (report fuel id o session).revised id' (report fuel id o session).session.palette := by
  have hrenames := renames_run fuel id id' o (session.fresh o.out)
  rw [Session.withRun_fresh] at hrenames
  unfold report
  rw [hrenames]
  cases run fuel id o (session.fresh o.out) with
  | ok result after => rfl
  | error e after => rfl

/-- The report on a run that cannot load its settings. -/
theorem report_of_unloaded {cause : Settings.FileError}
    (hload : Settings.load session.files o.settingsFile = .error cause) (fuel : Nat) (id : String) :
    report fuel id o session = ⟨.error (.settingsFile cause), session.fresh o.out⟩ := by
  have hconfigure : configure o (session.fresh o.out) = _ := configure_of_error hload
  refine report_of_run ?_
  simp only [run_eq_conclude, Bind.bind, EStateM.bind, hconfigure]
  rfl

/-- If the settings can be loaded, it does not matter how the switch was. -/
theorem report_recolored {loaded : Settings}
    (hload : Settings.load session.files o.settingsFile = .ok loaded)
    (h : Resembles session session') (fuel : Nat) (id : String) :
    report fuel id o session' = report fuel id o session := by
  have hconfigure : configure o { session.fresh o.out with palette := session'.palette } =
      configure o (session.fresh o.out) :=
    configure_recolored (session.fresh o.out) hload session'.palette
  unfold report
  rw [h.fresh_eq, run_eq_conclude]
  simp only [Bind.bind, EStateM.bind, hconfigure]

/-- A report from the same files and environment differs in the identifier, and in the switch if the
settings cannot be loaded. -/
theorem report_eq (h : Resembles session session') (fuel : Nat) (id id' : String) (o : Options) :
    report fuel id' o session' =
      (report fuel id o session).revised id' (o.paletteAfter session') := by
  cases hload : Settings.load session.files o.settingsFile with
  | error cause =>
    -- Both runs fail at once, each with its own switch.
    have hload' : Settings.load session'.files o.settingsFile = .error cause := by
      rw [h.files_eq, hload]
    have hafter : o.paletteAfter session' = session'.palette := by
      rw [Options.paletteAfter, hload']
    rw [report_of_unloaded hload, report_of_unloaded hload', hafter, Report.revised,
      Session.withRun_fresh, h.fresh_eq]
  | ok loaded =>
    -- The switch is then a matter of files and environment, which are the same.
    have hafter : o.paletteAfter session' = o.paletteAfter session := by
      unfold Options.paletteAfter
      rw [h.files_eq, h.environment_eq, hload]
    have hpalette : (report fuel id o session).session.palette = o.paletteAfter session := by
      rw [session_report]
      exact (palette_run fuel id o _).1
    rw [report_recolored hload h, report_renamed fuel id id', hafter, hpalette]

/-- So a run returns whatever the identifier and the switch. -/
theorem Returns.revised {r : Report} (hreturns : Returns id o session r)
    (h : Resembles session session') (id' : String) :
    Returns id' o session' (r.revised id' (o.paletteAfter session')) := by
  obtain ⟨fuel, hsame⟩ := hreturns
  refine ⟨fuel, fun more => ?_⟩
  rw [report_eq h (fuel + more) id id' o, hsame more]

/-- A run has one report. -/
theorem Returns.unique {r r' : Report} (hreturns : Returns id o session r)
    (hreturns' : Returns id o session r') : r' = r := by
  obtain ⟨fuel, hsame⟩ := hreturns
  -- Each report is that of every larger fuel, so at the sum of both it is the report of either.
  obtain ⟨fuel', hsame'⟩ := hreturns'
  calc
    r' = report (fuel' + fuel) id o session := (hsame' fuel).symm
    _ = report (fuel + fuel') id o session := by rw [Nat.add_comm]
    _ = r := hsame fuel'

/-- What a run that returns leaves of the switch and the environment. -/
theorem Returns.palette_eq {r : Report} (hreturns : Returns id o session r) :
    r.session.palette = o.paletteAfter session ∧
      r.session.environment = session.environment := by
  obtain ⟨fuel, hsame⟩ := hreturns
  rw [← hsame 0, session_report]
  exact palette_run (fuel + 0) id o _

end Reports

/-! ## Sequences of runs -/

/-- One run among others. -/
structure Turn where
  id : String
  options : Options
  report : Report

/-- Runs one after another, each of which returns. Every run starts from what the one before it
left. -/
inductive Turns : Session → List Turn → Session → Prop where
  | nil (session : Session) : Turns session [] session
  | cons {session after : Session} {turn : Turn} {turns : List Turn}
      (head : Returns turn.id turn.options session turn.report)
      (tail : Turns turn.report.session turns after) : Turns session (turn :: turns) after

/-- Two runs with the same options come to the same: the same result or error, the same text, the
same room left in the outlet and the same files. Their records are the same apart from the
identifier of the run, and so is what a logger writes of them. -/
structure Turn.Alike (turn turn' : Turn) : Prop where
  options_eq : turn'.options = turn.options
  outcome_eq : turn'.report.outcome = turn.report.outcome
  out_eq : turn'.report.session.out = turn.report.session.out
  outlet_eq : turn'.report.session.outlet = turn.report.session.outlet
  files_eq : turn'.report.session.files = turn.report.session.files
  log_eq : turn'.report.session.log = turn.report.session.log.map (Record.withRun turn'.id)

section Turns

variable {session session' after after' : Session} {turns turns' : List Turn}

/-- No run changes the environment. -/
theorem Turns.environment_eq (h : Turns session turns after) :
    after.environment = session.environment := by
  induction h with
  | nil => rfl
  | cons head _ ih => exact ih.trans head.palette_eq.2

/-- Runs with the same options come to the same, one by one, from the same files and environment. -/
theorem Turns.alike (h : Turns session turns after) (h' : Turns session' turns' after')
    (hresembles : Resembles session session')
    (hoptions : turns'.map Turn.options = turns.map Turn.options) :
    List.Forall₂ Turn.Alike turns turns' := by
  induction h generalizing session' turns' with
  | nil =>
    rw [List.map_eq_nil_iff.1 hoptions]
    exact .nil
  | @cons session after turn turns head tail ih =>
    cases h' with
    | nil => cases hoptions
    | @cons _ _ turn' turns' head' tail' =>
      obtain ⟨id', options', report'⟩ := turn'
      obtain ⟨hfirst, hrest⟩ := List.cons.inj hoptions
      -- The second report is the first one, revised, so that the rest starts from sessions that
      -- resemble each other again.
      obtain rfl : options' = turn.options := hfirst
      obtain rfl := (head.revised hresembles id').unique head'
      exact .cons ⟨rfl, rfl, rfl, rfl, rfl, rfl⟩ (ih tail' ⟨rfl, rfl⟩ hrest)

/-- Runs that return do so under other identifiers and with another switch. -/
theorem Turns.repeated (h : Turns session turns after) (hresembles : Resembles session session')
    {ids : List String} (hlength : ids.length = turns.length) :
    ∃ turns' after', Turns session' turns' after' ∧ turns'.map Turn.id = ids ∧
      turns'.map Turn.options = turns.map Turn.options := by
  induction h generalizing session' ids with
  | nil => exact ⟨[], session', .nil _, (List.eq_nil_of_length_eq_zero hlength).symm, rfl⟩
  | @cons session after turn turns head tail ih =>
    cases ids with
    | nil => cases hlength
    | cons id ids =>
      have hhead := head.revised hresembles id
      obtain ⟨turns', after', htail, hids, hoptions⟩ := ih
        (show Resembles turn.report.session
          (turn.report.revised id (turn.options.paletteAfter session')).session from ⟨rfl, rfl⟩)
        (Nat.succ.inj hlength)
      exact ⟨⟨id, turn.options, _⟩ :: turns', after', .cons hhead htail,
        congrArg (id :: ·) hids, congrArg (turn.options :: ·) hoptions⟩

end Turns

/-- Runs one after another do not show how the colour switch was before the first. With any other
switch the same runs return too, under any identifiers, and come to the same, one by one. And after
whatever runs, the switch is set by a run's own options and settings and by the environment as soon
as the run has loaded its settings, even if it fails later; a run that cannot load them leaves the
switch as it was. -/
theorem runs_isolated (session : Session) :
    (∀ (palette : Palette) (turns : List Turn) (after : Session), Turns session turns after →
      (∀ ids : List String, ids.length = turns.length →
        ∃ turns' after', Turns { session with palette } turns' after' ∧ turns'.map Turn.id = ids ∧
          turns'.map Turn.options = turns.map Turn.options) ∧
      ∀ turns' after', Turns { session with palette } turns' after' →
        turns'.map Turn.options = turns.map Turn.options → List.Forall₂ Turn.Alike turns turns') ∧
    ∀ (turns : List Turn) (between : Session), Turns session turns between →
      ∀ (id : String) (o : Options) (r : Report), Returns id o between r →
        (∀ loaded, Settings.load between.files o.settingsFile = .ok loaded →
          r.session.palette.enabled =
            (!o.noColor && loaded.color && session.environment.wantsColor)) ∧
        ∀ cause, Settings.load between.files o.settingsFile = .error cause →
          r.session.palette = between.palette := by
  constructor
  · intro palette turns after hturns
    have hresembles : Resembles session { session with palette } := ⟨rfl, rfl⟩
    exact ⟨fun ids hlength => hturns.repeated hresembles hlength,
      fun turns' after' hturns' hoptions => hturns.alike hturns' hresembles hoptions⟩
  · -- Only the environment is needed from the runs before, and no run changes it.
    intro turns between hturns id o r hreturns
    have hpalette := hreturns.palette_eq.1
    unfold Options.paletteAfter at hpalette
    constructor
    · intro loaded hload
      rw [hload] at hpalette
      rw [hpalette, ← hturns.environment_eq]
      rfl
    · intro cause hload
      rw [hload] at hpalette
      exact hpalette

/-- A run that prints in colour, and after it one without colours whose outlet takes two lines of
three. Both set the switch, and with any other switch in front of the first they would have come to
the same. -/
theorem runs_isolated_twice :
    let session : Session :=
      { files := { entries := [(["a"], .file [])] }, environment := { forceColor := "1" } }
    let colored : Options :=
      { settingsFile := "a", program := "add", argument := 3, dumpStack := true, trace := true }
    let plain : Options := { colored with noColor := true, out := { room := some 2 } }
    ∃ first second : Turn, first.options = colored ∧ second.options = plain ∧
      Turns session [first, second] second.report.session ∧
      first.report.session.out =
        "6\n\x1b[32m=== Residual Stack ===\x1b[0m\n\x1b[90m(empty)\x1b[0m\n" ∧
      first.report.session.palette.enabled = true ∧
      second.report.session.out = "6\n=== Residual Stack ===\n" ∧
      second.report.session.palette.enabled = false ∧
      ∀ palette : Palette, ∃ first' second' after',
        Turns { session with palette } [first', second'] after' ∧
        first'.id = "third" ∧ second'.id = "fourth" ∧ first.Alike first' ∧
        second.Alike second' := by
  intro session colored plain
  have hprepares : Prepares colored session.files (colored.apply { path := "a" })
      (Program.add 3 3) session.files :=
    .of_unsaved ⟨⟨_, load_of_empty, rfl⟩, by decide⟩ (.builtIn (by decide) rfl rfl) rfl
  have hstop : (Machine.step^[5] (colored.start (colored.apply { path := "a" }) (Program.add 3 3)
      colored.out)).status ≠ .running := by decide +kernel
  have hfirst := returns_of_stopped hprepares "first" hstop
  -- The first run changes no file, so that the second one finds the same settings.
  obtain ⟨after, hfiles, hreport⟩ := report_of_executed hprepares rfl "first" 5
  have hkept : (report 5 "first" colored session).session.files = session.files := by
    rw [hreport]
    exact hfiles
  have hload : Settings.load (report 5 "first" colored session).session.files "a" =
      .ok { path := "a" } := by
    rw [hkept]
    exact load_of_empty
  have hprepares' : Prepares plain (report 5 "first" colored session).session.files
      (plain.apply { path := "a" }) (Program.add 3 3)
      (report 5 "first" colored session).session.files :=
    .of_unsaved ⟨⟨_, hload, rfl⟩, by decide⟩ (.builtIn (by decide) rfl rfl) rfl
  have hstop' : (Machine.step^[5] (plain.start (plain.apply { path := "a" }) (Program.add 3 3)
      plain.out)).status ≠ .running := by decide +kernel
  have hsecond := returns_of_stopped hprepares' "second" hstop'
  have hturns : Turns session [⟨"first", colored, _⟩, ⟨"second", plain, _⟩] _ :=
    .cons hfirst (.cons hsecond (.nil _))
  obtain ⟨hsame, hswitch⟩ := runs_isolated session
  refine ⟨_, _, rfl, rfl, hturns, by decide +kernel, ?_, by decide +kernel, ?_, fun palette => ?_⟩
  · exact (hswitch [] session (.nil _) _ _ _ hfirst).1 _ load_of_empty
  · exact (hswitch [⟨"first", colored, _⟩] _ (.cons hfirst (.nil _)) _ _ _ hsecond).1 _ hload
  · obtain ⟨hrepeated, halike⟩ := hsame palette _ _ hturns
    obtain ⟨turns', after', hturns', hids, hoptions⟩ := hrepeated ["third", "fourth"] rfl
    obtain ⟨first', rest, rfl, hid, hrest⟩ := List.map_eq_cons_iff.1 hids
    obtain ⟨second', rest', rfl, hid', hnil⟩ := List.map_eq_cons_iff.1 hrest
    obtain rfl := List.map_eq_nil_iff.1 hnil
    refine ⟨first', second', after', hturns', hid, hid', ?_⟩
    cases halike _ _ hturns' hoptions with
    | cons halike₁ hothers =>
      cases hothers with
      | cons halike₂ _ => exact ⟨halike₁, halike₂⟩

end Runner

end StackMachine
