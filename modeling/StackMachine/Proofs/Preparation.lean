import StackMachine.Runner
import StackMachine.Proofs.Files
import StackMachine.Proofs.Iterate
import StackMachine.Proofs.Run
import StackMachine.Proofs.Sizes

/-!
# What a run saves and executes

Before a run saves or executes anything it loads settings and a program (`Runner.prepare`), and
fails there if it fails at all, apart from a failure to save. The settings have passed their checks,
and so has the program, which keeps passing them with the locals that the settings ask for. The
machine that is built of both has therefore exactly the sizes that are asked for: none is out of the
range into which a new machine moves them (`Machine.Matches`).

A run prints to an outlet that may take only so many writes, and its machine gets what the lines in
front of it have left. `Gives` counts the writes of a task, and `Options.start` is the machine.
-/

namespace StackMachine

/-! ## Images that can be run -/

namespace Image

/-- What it takes for a machine to run an image. -/
structure IsRunnable (image : Image) : Prop where
  entry_nonneg : 0 ≤ image.entry.toInt
  entry_lt : image.entry.toInt < image.words.size
  locals_nonneg : 0 ≤ image.locals.toInt
  locals_le : image.locals.toInt ≤ Machine.maxLocals

/-- An image has no defect exactly if a machine can run it. -/
theorem defect?_eq_none_iff (image : Image) : image.defect? = none ↔ image.IsRunnable := by
  have hentry : image.entry < 0 ↔ image.entry.toInt < 0 := Int64.lt_iff_toInt_lt
  have hlocals : image.locals < 0 ↔ image.locals.toInt < 0 := Int64.lt_iff_toInt_lt
  simp only [defect?, hentry, hlocals]
  constructor
  · intro h
    -- The four checks in their order: each one that passes gives a bound, and one that fails a
    -- defect.
    split at h
    · cases h
    split at h
    · cases h
    split at h
    · cases h
    split at h
    · cases h
    constructor <;> omega
  · rintro ⟨h1, h2, h3, h4⟩
    rw [if_neg (by omega), if_neg (by omega), if_neg (by omega), if_neg (by omega)]

/-- An image that is decoded can be run. -/
theorem defect?_of_decode {format : Option Format} {bs : Bytes} {image : Image}
    (h : decode format bs = .ok image) : image.defect? = none := by
  cases format with
  | none => cases h
  | some format =>
    cases hread : read format bs with
    | error e =>
      simp only [decode, hread, bind, Except.bind] at h
      cases h
    | ok found =>
      simp only [decode, hread, bind, Except.bind] at h
      split at h
      · cases h
      · next hdefect =>
        cases h
        exact hdefect

/-- A name makes no defect. -/
theorem defect?_named (image : Image) (name : String) :
    (image.named name).defect? = image.defect? := by
  unfold named
  split
  · rfl
  · rfl

/-- An image that is loaded can be run. -/
theorem defect?_of_load {files : Files} {path : String} {image : Image}
    (h : load files path = .ok image) : image.defect? = none := by
  unfold load at h
  split at h
  · cases h
  · next format _ =>
    cases hread : files.read path with
    | error e =>
      simp only [hread, Except.mapError, bind, Except.bind] at h
      cases h
    | ok contents =>
      cases hdecode : decode (some format) contents with
      | error e =>
        simp only [hread, hdecode, Except.mapError, bind, Except.bind] at h
        cases h
      | ok found =>
        simp only [hread, hdecode, Except.mapError, bind, Except.bind] at h
        cases h
        rw [defect?_named]
        exact defect?_of_decode hdecode

end Image

/-- A built-in program can be run, whatever its argument. -/
theorem Program.defect?_of_ofName? {name : String} {argument : Int64} {image : Image}
    (h : Program.ofName? name argument = some image) : image.defect? = none := by
  -- The argument is only data of the code, so all entries can be checked at once.
  have hall : ∀ entry ∈ table, (entry.2 argument).defect? = none := by
    simp only [table, List.mem_cons, List.not_mem_nil, or_false, forall_eq_or_imp, forall_eq]
    exact ⟨rfl, rfl, rfl⟩
  obtain ⟨make, hmake, rfl⟩ := Option.map_eq_some_iff.1 h
  obtain ⟨before, after, htable, -⟩ := List.lookup_eq_some_iff.1 hmake
  exact hall (name, make) (by rw [htable]; simp)

/-- A computation gives what is left of it as an option. Unlike the results of computations, options
can be compared. -/
theorem eq_ok_of_toOption {ε α : Type} {x : Except ε α} {a : α} (h : x.toOption = some a) :
    x = .ok a := by
  cases x with
  | error e => cases h
  | ok b => exact congrArg Except.ok (Option.some.inj h)

namespace Runner

/-! ## Tasks -/

/-- The files, what has been printed and the outlet are the same. -/
structure Untouched (session after : Session) : Prop where
  files : after.files = session.files
  out : after.out = session.out
  outlet : after.outlet = session.outlet

/-- What is left alone by one task after another. -/
theorem Untouched.trans {session between after : Session} (h : Untouched session between)
    (h' : Untouched between after) : Untouched session after :=
  ⟨h'.files.trans h.files, h'.out.trans h.out, h'.outlet.trans h.outlet⟩

/-- In the session the task gives a value, after so many writes, and changes no file. -/
def Gives {α : Type} (t : Task α) (session : Session) (a : α) (writes : Nat) : Prop :=
  ∃ after, t session = .ok a after ∧ after.files = session.files ∧
    after.outlet = session.outlet.after writes

section Gives

variable {α β : Type} {t : Task α} {a : α} {f : α → Task β} {b : β} {session : Session} {n k : Nat}

/-- Giving a value at once. -/
theorem gives_pure (a : α) (session : Session) : Gives (pure a) session a 0 :=
  ⟨session, rfl, rfl, (Outlet.after_zero _).symm⟩

/-- One task after another. The second one finds what the first one has left of the outlet. -/
theorem Gives.bind (h : Gives t session a n)
    (h' : ∀ between, between.outlet = session.outlet.after n → Gives (f a) between b k) :
    Gives (t >>= f) session b (n + k) := by
  obtain ⟨between, hfirst, hfiles, houtlet⟩ := h
  obtain ⟨after, hthen, hfiles', houtlet'⟩ := h' between houtlet
  refine ⟨after, ?_, hfiles'.trans hfiles, ?_⟩
  · simp only [Bind.bind, EStateM.bind, hfirst, hthen]
  · rw [houtlet', houtlet, Outlet.after_after]

/-- Looking at the session. -/
theorem gives_get {f : Session → Task β} (h : Gives (f session) session b k) :
    Gives (get >>= f) session b k := h

/-- A task that is done or left out. -/
theorem gives_when {t : Task Unit} {f : Unit → Task β} (c : Bool) (h : Gives t session () n)
    (h' : ∀ between, Gives (f ()) between b k) :
    Gives (if c = true then t >>= f else f ()) session b ((if c then n else 0) + k) := by
  cases c with
  | true => exact h.bind fun between _ => h' between
  | false =>
    rw [if_neg Bool.false_ne_true, if_neg Bool.false_ne_true, Nat.zero_add]
    exact h' session

/-- Logging makes no write. -/
theorem gives_note (level : Level) (message : String) (pairs : List (String × String))
    (session : Session) : Gives (note level message pairs) session () 0 :=
  ⟨_, rfl, rfl, (Outlet.after_zero _).symm⟩

/-- A line is one write, taken or refused. -/
theorem gives_printLine (text : String) (session : Session) :
    Gives (printLine text) session () 1 :=
  ⟨_, rfl, rfl, rfl⟩

/-- Lines are as many writes. -/
theorem gives_printLines (lines : List String) (session : Session) :
    Gives (printLines lines) session () lines.length := by
  -- A line that is refused is a write as well, so that the session does not matter.
  induction lines generalizing session with
  | nil => exact gives_pure () session
  | cons line lines ih =>
    rw [List.length_cons, Nat.add_comm]
    exact (gives_printLine line session).bind fun between _ => ih between

/-- A heading is a line. -/
theorem gives_heading (title : String) (session : Session) : Gives (heading title) session () 1 :=
  ⟨_, rfl, rfl, rfl⟩

end Gives

/-! ## Lines in front of the program's -/

/-- How many headings a section has: only a verbose run prints them. -/
def Options.headings (o : Options) : Nat :=
  if o.verbose then 1 else 0

/-- How many lines the section with the listing of an image has. -/
def Options.listed (o : Options) (image : Image) : Nat :=
  if o.disassemble then o.headings + (Text.lines (withoutLineEnds image.listing)).length else 0

/-- The machine that a run starts. It prints to what the lines in front of it leave of the outlet.
-/
def Options.start (o : Options) (s : Settings) (image : Image) (outlet : Outlet) : Machine :=
  machine s image (outlet.after (o.listed image + o.headings))

/-- The listing is printed line by line, or not at all. -/
theorem gives_list (o : Options) (image : Image) (session : Session) :
    Gives (list o image) session () (o.listed image) := by
  have hlines (p : Palette) (between : Session) :
      Gives (printLines (listingLines p image.listing)) between ()
        (Text.lines (withoutLineEnds image.listing)).length := by
    have hgives := gives_printLines (listingLines p image.listing) between
    rwa [listingLines, List.length_map] at hgives
  unfold list Options.listed Options.headings
  cases o.disassemble with
  | true =>
    rw [if_pos rfl, if_pos rfl]
    exact gives_when o.verbose (gives_heading _ session) fun between => gives_get (hlines _ between)
  | false => exact gives_pure () session

/-- An execution is announced by a heading, or by none. -/
theorem gives_announce (id : String) (o : Options) (s : Settings) (image : Image)
    (session : Session) : Gives (announce id o s image) session () o.headings := by
  rw [← Nat.zero_add o.headings]
  refine (gives_note _ _ _ session).bind fun between _ => ?_
  unfold Options.headings
  cases o.verbose with
  | true => exact gives_heading _ between
  | false => exact gives_pure () between

/-! ## Execution -/

/-- It makes no difference to the machine whether it is traced. -/
theorem runTracing_fst (trace : Bool) (fuel : Nat) (start : Machine) :
    (runTracing trace fuel start).1 = start.run fuel := by
  unfold runTracing
  split
  · exact Machine.runTraced_fst fuel start #[]
  · rfl

/-- Running the machine gives what it comes to. Its output is added to that of the run, and what it
leaves of the outlet is left to the run. -/
theorem runMachine_eq (fuel : Nat) (id : String) (s : Settings) (image : Image)
    (session : Session) :
    let start := machine s image session.outlet
    runMachine fuel id s image session = .ok (start.run fuel)
      { session with
        out := session.out ++ (start.run fuel).out.text
        outlet := (start.run fuel).out.toOutlet
        log := session.log ++
          (runTracing s.trace fuel start).2.map (traceRecord (context id image)) } := by
  intro start
  rw [← runTracing_fst s.trace fuel start]
  rfl

/-- The machine makes a write for each value it prints. -/
theorem toOutlet_run (fuel : Nat) (s : Settings) (image : Image) (outlet : Outlet) :
    let m := (machine s image outlet).run fuel
    m.out.toOutlet = outlet.after m.out.printed.size := by
  intro m
  obtain ⟨values, htook⟩ := Machine.Prints.iterate (machine s image outlet) fuel
  rw [← Machine.run_eq_iterate] at htook
  -- A new machine has printed nothing, so that the values are all that it has printed now.
  have hvalues : m.out.printed = values := htook.printed.trans Array.empty_append
  rw [hvalues]
  exact htook.toOutlet_eq

/-- As a task, the run of the machine gives the machine it comes to, after a write for each value.
-/
theorem gives_runMachine (fuel : Nat) (id : String) (s : Settings) (image : Image)
    (session : Session) :
    let m := (machine s image session.outlet).run fuel
    Gives (runMachine fuel id s image) session m m.out.printed.size :=
  ⟨_, runMachine_eq fuel id s image session, rfl, toOutlet_run fuel s image session.outlet⟩

/-- A stack has a line for each slot, and one if it is empty. -/
theorem length_stackLines (p : Palette) (stack : List Int64) :
    (stackLines p stack).length = max 1 stack.length := by
  cases stack with
  | nil => rfl
  | cons v stack => simp [stackLines]

/-- A stack is printed below a heading. -/
theorem gives_dump (stack : List Int64) (session : Session) :
    Gives (dump stack) session () (1 + max 1 stack.length) := by
  refine (gives_heading _ session).bind fun between _ => gives_get ?_
  rw [← length_stackLines between.palette stack]
  exact gives_printLines _ between

/-- How an execution ended is only logged. -/
theorem gives_recordEnd (id : String) (image : Image) (m : Machine) (session : Session) :
    Gives (recordEnd id image m) session () 0 := by
  unfold recordEnd
  split
  · exact gives_note _ _ _ session
  · exact gives_note _ _ _ session
  · exact gives_pure () session

/-- Executing an image gives what its machine comes to. The machine prints to what the heading has
left of the outlet. -/
theorem gives_execute (fuel : Nat) (id : String) (o : Options) (s : Settings) (image : Image)
    (session : Session) :
    let m := (machine s image (session.outlet.after o.headings)).run fuel
    Gives (execute fuel id o s image) session (.ofMachine image m) (o.headings +
      (m.out.printed.size + if s.dumpStack then 1 + max 1 m.stack.toList.length else 0)) := by
  intro m
  -- The tasks one after another. Only the machine looks at what the writes before it have left.
  refine (gives_announce id o s image session).bind fun announced houtlet => ?_
  have hrun := gives_runMachine fuel id s image announced
  rw [houtlet] at hrun
  refine hrun.bind fun ran _ => ?_
  rw [← Nat.add_zero (if s.dumpStack = true then _ else 0)]
  refine gives_when s.dumpStack (gives_dump _ ran) fun dumped => ?_
  show Gives (recordEnd id image m >>= fun _ => pure (Result.ofMachine image m)) dumped _ (0 + 0)
  exact (gives_recordEnd id image m dumped).bind fun ended _ => gives_pure _ ended

/-! ## Settings -/

section Configure

variable {o : Options} {session : Session}

/-- A run fails at settings that cannot be loaded. -/
theorem configure_of_error {cause : Settings.FileError}
    (hload : Settings.load session.files o.settingsFile = .error cause) :
    configure o session = .error (.settingsFile cause) session := by
  simp only [configure, bind, EStateM.bind, get, getThe, MonadStateOf.get, EStateM.get, hload]
  rfl

/-- A run fails at settings that cannot be used with its options. -/
theorem configure_of_defect {loaded : Settings} {cause : Settings.Invalid}
    (hload : Settings.load session.files o.settingsFile = .ok loaded)
    (hdefect : (o.apply loaded).defect? = some cause) :
    ∃ after, configure o session = .error (.settings cause) after ∧ Untouched session after := by
  simp only [configure, bind, EStateM.bind, get, getThe, MonadStateOf.get, EStateM.get, hload,
    hdefect]
  split
  · exact ⟨_, rfl, rfl, rfl, rfl⟩
  · exact ⟨_, rfl, rfl, rfl, rfl⟩

/-- Otherwise it goes on with the settings that its options make of those loaded. -/
theorem configure_of_ok {loaded : Settings}
    (hload : Settings.load session.files o.settingsFile = .ok loaded)
    (hdefect : (o.apply loaded).defect? = none) :
    ∃ after, configure o session = .ok (o.apply loaded) after ∧ Untouched session after := by
  simp only [configure, bind, EStateM.bind, get, getThe, MonadStateOf.get, EStateM.get, hload,
    hdefect]
  split
  · exact ⟨_, rfl, rfl, rfl, rfl⟩
  · exact ⟨_, rfl, rfl, rfl, rfl⟩

end Configure

/-! ## Programs -/

/-- A task that looks for a program leaves files and output alone, and what it finds can be run. -/
def Seeks (t : Task Image) : Prop :=
  ∀ session, (∃ e after, t session = .error e after ∧ Untouched session after) ∨
    ∃ image after, t session = .ok image after ∧ Untouched session after ∧ image.defect? = none

/-- A task that fails at once. -/
theorem seeks_throw (e : Error) : Seeks (throw e) :=
  fun session => .inl ⟨e, session, rfl, rfl, rfl, rfl⟩

/-- A built-in program. -/
theorem seeks_builtIn (name : String) (argument : Int64) : Seeks (builtIn name argument) := by
  cases hprogram : Program.ofName? name argument with
  | none =>
    simp only [builtIn, hprogram]
    exact seeks_throw _
  | some image =>
    simp only [builtIn, hprogram]
    exact fun _ => .inr ⟨image, _, rfl, ⟨rfl, rfl, rfl⟩, Program.defect?_of_ofName? hprogram⟩

/-- A program in a file. -/
theorem seeks_fromFile (path : String) : Seeks (fromFile path) := by
  intro session
  simp only [fromFile, note, bind, EStateM.bind, modify, modifyGet, MonadStateOf.modifyGet,
    EStateM.modifyGet, get, getThe, MonadStateOf.get, EStateM.get]
  cases hload : Image.load session.files path with
  | error cause => exact .inl ⟨.loading cause, _, rfl, rfl, rfl, rfl⟩
  | ok image => exact .inr ⟨image, _, rfl, ⟨rfl, rfl, rfl⟩, Image.defect?_of_load hload⟩

/-- The program that the options ask for. -/
theorem seeks_loadImage (o : Options) : Seeks (loadImage o) := by
  unfold loadImage
  split
  · split
    · exact seeks_throw _
    · exact seeks_builtIn o.program o.argument
  · split
    · exact seeks_fromFile o.sourceFile
    · exact seeks_throw _

/-- The locals of usable settings make no defect. -/
theorem defect?_withLocals {s : Settings} {image : Image} (hs : s.sizes.InRange)
    (himage : image.defect? = none) : (withLocals s image).defect? = none := by
  rw [Image.defect?_eq_none_iff] at himage ⊢
  unfold withLocals
  split
  · exact ⟨himage.entry_nonneg, himage.entry_lt, hs.locals_nonneg, hs.locals_le⟩
  · exact himage

/-! ## Runs -/

/-- What a run does before it saves or executes anything: it loads settings and a program. -/
def prepare (o : Options) : Task (Settings × Image) := do
  let settings ← configure o
  let loaded ← loadImage o
  return (settings, loaded)

/-- What a run does with its settings and its program. -/
def finish (fuel : Nat) (id : String) (o : Options) (settings : Settings) (image : Image) :
    Task Result := do
  saveImage o image
  list o image
  if o.noRun then
    return { image }
  execute fuel id o settings image

/-- A run prepares and finishes. -/
theorem run_eq (fuel : Nat) (id : String) (o : Options) (session : Session) :
    run fuel id o session = (prepare o >>= fun found =>
      finish fuel id o found.1 (withLocals found.1 found.2)) session := by
  simp only [run, prepare, finish, bind, EStateM.bind]
  cases configure o session with
  | error e after => rfl
  | ok settings after =>
    dsimp only
    cases loadImage o after with
    | error e after => rfl
    | ok loaded after => rfl

/-- A run that fails at the file it is asked to save an image to. -/
structure CannotSave (o : Options) (image : Image) (files : Files) (e : Error) : Prop where
  asked : o.outputFile ≠ ""
  failed : ∃ cause, e = .writing cause ∧ Image.save files o.outputFile image = .error cause

/-- How a run saves: it changes the files if it can and fails otherwise, and prints nothing. -/
theorem saveImage_cases (o : Options) (image : Image) (session : Session) :
    (∃ e after, saveImage o image session = .error e after ∧ Untouched session after ∧
      CannotSave o image session.files e) ∨
      ∃ after, saveImage o image session = .ok () after ∧ after.outlet = session.outlet ∧
        (o.outputFile = "" → after.files = session.files) ∧
        (o.outputFile ≠ "" → Image.save session.files o.outputFile image = .ok after.files) := by
  -- No file to save to means that there is nothing to do.
  by_cases hfile : o.outputFile = ""
  · refine .inr ⟨session, ?_, rfl, fun _ => rfl, fun h => absurd hfile h⟩
    rw [saveImage, if_neg (by simpa using hfile)]
    rfl
  · rw [saveImage, if_pos hfile]
    simp only [bind, EStateM.bind, get, getThe, MonadStateOf.get, EStateM.get]
    cases hsave : Image.save session.files o.outputFile image with
    | error cause => exact .inl ⟨.writing cause, _, rfl, ⟨rfl, rfl, rfl⟩, hfile, cause, rfl, hsave⟩
    | ok files => exact .inr ⟨_, rfl, rfl, fun h => absurd h hfile, fun _ => rfl⟩

/-- What a run that finishes leaves: the image that it came to, in the file it is asked to save it
to, and what the machine that it started came to, unless nothing is to be executed. -/
structure Leaves (fuel : Nat) (o : Options) (image : Image) (start : Machine) (before after : Files)
    (result : Result) : Prop where
  image_eq : result.image = image
  kept : o.outputFile = "" → after = before
  saved : o.outputFile ≠ "" → Image.save before o.outputFile image = .ok after
  executed : o.noRun = false → result = .ofMachine image (start.run fuel)

/-- A run that is prepared fails to save or finishes. -/
theorem finish_cases (fuel : Nat) (id : String) (o : Options) (settings : Settings) (image : Image)
    (session : Session) :
    (∃ e after, finish fuel id o settings image session = .error e after ∧
      Untouched session after ∧ CannotSave o image session.files e) ∨
    ∃ result after, finish fuel id o settings image session = .ok result after ∧
      Leaves fuel o image (o.start settings image session.outlet) session.files after.files
        result := by
  rcases saveImage_cases o image session with
    ⟨e, after, hsave, huntouched, hcause⟩ | ⟨saved, hsave, houtlet, hkept, hsaved⟩
  · refine .inl ⟨e, after, ?_, huntouched, hcause⟩
    simp only [finish, bind, EStateM.bind, hsave]
  · right
    obtain ⟨listed, hlist, hlisted, houtlet'⟩ := gives_list o image saved
    simp only [finish, bind, EStateM.bind, hsave, hlist]
    rw [← hlisted] at hkept hsaved
    cases hnoRun : o.noRun with
    | true =>
      exact ⟨{ image }, listed, rfl, rfl, hkept, hsaved, fun h => nomatch hnoRun.symm.trans h⟩
    | false =>
      -- The machine prints to what the listing and the heading have left of the outlet.
      obtain ⟨after, hexecute, hfiles, -⟩ := gives_execute fuel id o settings image listed
      rw [houtlet', houtlet, Outlet.after_after] at hexecute
      rw [← hfiles] at hkept hsaved
      exact ⟨_, after, hexecute, rfl, hkept, hsaved, fun _ => rfl⟩

end Runner

/-! ## Sizes -/

/-- A machine has exactly the sizes that are asked for, with `own` locals where none are, and can
fetch its first opcode. -/
structure Machine.Matches (m : Machine) (asked : Sizes) (own : Int64) : Prop where
  capacity : (m.stack.capacity : Int) = asked.capacity.toInt
  locals : (m.locals.size : Int) = if 0 < asked.locals then asked.locals.toInt else own.toInt
  budget : m.budget = if asked.maxSteps = 0 then none else some asked.maxSteps.toInt.toNat
  fetch : ∃ op, Action.fetch m = .ok op { m with pc := m.pc + 1 }

/-- A size that is within its range is not moved. -/
theorem Machine.clamp_of_le {limit : Nat} {size : Int} (hnonneg : 0 ≤ size) (hle : size ≤ limit) :
    (clamp limit size : Int) = size := by
  rw [clamp]
  omega

/-- The machine of an image that can be run has the sizes that it is asked for if they are within
their ranges, and the locals of the image. -/
theorem Image.IsRunnable.matches_machine {image : Image} (h : image.IsRunnable) {s : Settings}
    (hs : s.sizes.InRange) {own : Int64}
    (hlocals : image.locals.toInt = if 0 < s.locals then s.locals.toInt else own.toInt)
    (outlet : Outlet) : (Runner.machine s image outlet).Matches s.sizes own where
  capacity := by
    have hnonneg : 0 ≤ s.sizes.capacity.toInt := Int.le_trans (by decide) hs.one_le_capacity
    rw [Runner.machine, machine, Machine.new, Stack.capacity_empty]
    exact Machine.clamp_of_le hnonneg hs.capacity_le
  locals := by
    have hsize : ((Runner.machine s image outlet).locals.size : Int) = image.locals.toInt := by
      rw [Runner.machine, machine, Machine.new, Array.size_replicate]
      exact Machine.clamp_of_le h.locals_nonneg h.locals_le
    exact hsize.trans hlocals
  budget := by
    have hzero : s.maxSteps = 0 ↔ s.maxSteps.toInt = 0 := Int64.toInt_inj.symm
    have hnonneg : 0 ≤ s.maxSteps.toInt := hs.maxSteps_nonneg
    -- A budget is made of a positive limit, and zero stands for none. In range there is nothing
    -- else.
    have hpos : 0 < s.maxSteps.toInt ↔ ¬ s.maxSteps = 0 := by
      rw [hzero]
      omega
    change Machine.budgetOf s.maxSteps.toInt =
      if s.maxSteps = 0 then none else some s.maxSteps.toInt.toNat
    by_cases hsteps : s.maxSteps = 0
    · rw [Machine.budgetOf, if_neg (by rwa [hpos, not_not]), if_pos hsteps]
    · rw [Machine.budgetOf, if_pos (hpos.2 hsteps), if_neg hsteps]
  fetch := by
    have hinside : 0 ≤ image.entry.toInt ∧ image.entry.toInt < image.words.size :=
      ⟨h.entry_nonneg, h.entry_lt⟩
    exact ⟨_, dif_pos hinside⟩

namespace Runner

/-- The sizes with the overrides of the options. -/
def Options.sizes (o : Options) (s : Sizes) : Sizes :=
  { s with
    capacity := if 0 < o.stackCapacity then o.stackCapacity else s.capacity
    maxSteps := if 0 < o.maxSteps then o.maxSteps else s.maxSteps }

/-- With settings that can be used, the machine for a program that can be run has the sizes that
they ask for, and the locals of the program where they ask for none. -/
theorem matches_withLocals {s : Settings} {loaded : Image} (hs : s.sizes.InRange)
    (hloaded : loaded.defect? = none) (outlet : Outlet) :
    (machine s (withLocals s loaded) outlet).Matches s.sizes loaded.locals := by
  have hrunnable := (Image.defect?_eq_none_iff _).1 (defect?_withLocals hs hloaded)
  refine hrunnable.matches_machine hs ?_ outlet
  unfold withLocals
  split
  · rfl
  · rfl

/-- A run fails while it loads its settings, or goes on with settings that have the sizes which its
options make of those of the file. Both are then within the ranges. -/
theorem configure_cases (o : Options) (session : Session) :
    (∃ e after, configure o session = .error e after ∧ Untouched session after) ∨
    ∃ settings after, configure o session = .ok settings after ∧ Untouched session after ∧
      (Sizes.ofFile session.files o.settingsFile).InRange ∧
      settings.sizes = o.sizes (Sizes.ofFile session.files o.settingsFile) ∧
      settings.sizes.InRange := by
  cases hload : Settings.load session.files o.settingsFile with
  | error cause => exact .inl ⟨_, session, configure_of_error hload, rfl, rfl, rfl⟩
  | ok loaded =>
    obtain ⟨hsizes, hrange⟩ := Settings.sizes_of_load hload
    rw [← hsizes]
    cases hdefect : (o.apply loaded).defect? with
    | some cause =>
      obtain ⟨after, hconfigure, huntouched⟩ := configure_of_defect hload hdefect
      exact .inl ⟨_, after, hconfigure, huntouched⟩
    | none =>
      obtain ⟨after, hconfigure, huntouched⟩ := configure_of_ok hload hdefect
      have hasked := (Settings.defect?_eq_none_iff _).1 hdefect
      exact .inr ⟨_, after, hconfigure, huntouched, hrange, rfl, hasked⟩

/-- The same for the whole preparation, which comes to a program that can be run. -/
theorem prepare_cases (o : Options) (session : Session) :
    (∃ e after, prepare o session = .error e after ∧ Untouched session after) ∨
    ∃ settings loaded ready, prepare o session = .ok (settings, loaded) ready ∧
      Untouched session ready ∧
      settings.sizes = o.sizes (Sizes.ofFile session.files o.settingsFile) ∧
      settings.sizes.InRange ∧ loaded.defect? = none := by
  simp only [prepare, bind, EStateM.bind]
  rcases configure_cases o session with
    ⟨e, after, hconfigure, huntouched⟩ |
    ⟨settings, after, hconfigure, huntouched, -, hsizes, hrange⟩
  · rw [hconfigure]
    exact .inl ⟨e, after, rfl, huntouched⟩
  · rw [hconfigure]
    dsimp only
    rcases seeks_loadImage o after with
      ⟨e, later, hload, hlater⟩ | ⟨loaded, later, hload, hlater, hdefect⟩
    · rw [hload]
      exact .inl ⟨e, later, rfl, huntouched.trans hlater⟩
    · rw [hload]
      exact .inr ⟨settings, loaded, later, rfl, huntouched.trans hlater, hsizes, hrange, hdefect⟩

/-- Let `file` be the sizes that the settings file asks for and `asked` what the options make of
them. If either is out of range, then a run fails while it loads its settings, before it looks for a
program. In any case it fails before it saves or executes anything, with files and output as they
were, or it comes to an image without a defect. That image is the one it saves and executes: the
machine has exactly the sizes that are asked for, and the locals of the program itself where none
are asked for, can fetch its first opcode, and prints to what the run has left of its outlet. From
there the run can only fail to save the image. -/
theorem run_valid_and_sized (fuel : Nat) (id : String) (o : Options) (session : Session) :
    let file := Sizes.ofFile session.files o.settingsFile
    let asked := o.sizes file
    (¬ file.InRange ∨ ¬ asked.InRange →
      ∃ e after, configure o session = .error e after ∧ run fuel id o session = .error e after ∧
        Untouched session after) ∧
    ((∃ e after, prepare o session = .error e after ∧ run fuel id o session = .error e after ∧
        Untouched session after) ∨
      ∃ settings loaded ready, prepare o session = .ok (settings, loaded) ready ∧
        Untouched session ready ∧
        let image := withLocals settings loaded
        let start := o.start settings image session.outlet
        image.defect? = none ∧ asked.InRange ∧ start.Matches asked loaded.locals ∧
        run fuel id o session = finish fuel id o settings image ready ∧
        ((∃ e after, run fuel id o session = .error e after ∧ Untouched session after ∧
            CannotSave o image session.files e) ∨
          ∃ result after, run fuel id o session = .ok result after ∧
            Leaves fuel o image start session.files after.files result)) := by
  intro file asked
  constructor
  · -- Settings out of range are found while they are loaded: had the loading gone well, both sizes
    -- would be in range.
    intro hrange
    rcases configure_cases o session with
      ⟨e, after, hconfigure, huntouched⟩ | ⟨settings, after, hconfigure, -, hfile, hsizes, hasked⟩
    · refine ⟨e, after, hconfigure, ?_, huntouched⟩
      simp only [run, bind, EStateM.bind, hconfigure]
    · rw [hsizes] at hasked
      exact absurd hrange (by simp [file, asked, hfile, hasked])
  · rcases prepare_cases o session with
      ⟨e, after, hprepare, huntouched⟩ |
      ⟨settings, loaded, ready, hprepare, huntouched, hsizes, hrange, hdefect⟩
    · refine .inl ⟨e, after, hprepare, ?_, huntouched⟩
      simp only [run_eq, bind, EStateM.bind, hprepare]
    · -- The preparation leaves the outlet alone, so the machine's share of it is known from the
      -- session at the start.
      have hmatches := matches_withLocals hrange hdefect
        (session.outlet.after (o.listed (withLocals settings loaded) + o.headings))
      have hrun : run fuel id o session =
          finish fuel id o settings (withLocals settings loaded) ready := by
        simp only [run_eq, bind, EStateM.bind, hprepare]
      have hvalid := defect?_withLocals hrange hdefect
      rw [hsizes] at hmatches hrange
      refine .inr
        ⟨settings, loaded, ready, hprepare, huntouched, hvalid, hrange, hmatches, hrun, ?_⟩
      rw [hrun]
      rcases finish_cases fuel id o settings (withLocals settings loaded) ready with
        ⟨e, after, hfinish, hafter, hcause⟩ | ⟨result, after, hfinish, hleaves⟩
      · rw [huntouched.files] at hcause
        exact .inl ⟨e, after, hfinish, huntouched.trans hafter, hcause⟩
      · rw [huntouched.files, huntouched.outlet] at hleaves
        exact .inr ⟨result, after, hfinish, hleaves⟩

/-- A file gives a step limit of nine, and the options a stack of seven words: the machine for a
program of one local has both. A stack of more than the largest size is refused. -/
theorem run_valid_and_sized_from_file :
    let o : Options :=
      { settingsFile := "a", program := "countdown", argument := 3, stackCapacity := 7 }
    let session : Session :=
      { files := { entries := [(["a"], .file (Bytes.ofText "[machine]\nmax_steps=9"))] } }
    (∃ settings loaded ready, prepare o session = .ok (settings, loaded) ready ∧
      (withLocals settings loaded).defect? = none ∧
      let start := o.start settings (withLocals settings loaded) session.outlet
      start.stack.capacity = 7 ∧ start.budget = some 9 ∧ start.locals.size = 1) ∧
      ∃ e after, run 5 "" { o with stackCapacity := 1048577 } session = .error e after ∧
        Untouched session after := by
  intro o session
  have hload : Settings.load session.files o.settingsFile = .ok { maxSteps := 9, path := "a" } :=
    eq_ok_of_toOption (by decide +kernel)
  have hsizes : Sizes.ofFile session.files o.settingsFile = ⟨100, 0, 9⟩ :=
    (Settings.sizes_of_load hload).1.symm
  constructor
  · obtain ⟨after, hconfigure, -⟩ := configure_of_ok hload (by decide)
    obtain ⟨ready, hprepare⟩ : ∃ ready, prepare o session =
        .ok (o.apply { maxSteps := 9, path := "a" }, Program.countdown 3) ready := by
      simp only [prepare, bind, EStateM.bind, hconfigure]
      exact ⟨_, rfl⟩
    rcases (run_valid_and_sized 5 "" o session).2 with
      ⟨e, _, herror, -⟩ | ⟨settings, loaded, _, hprepared, -, hvalid, -, hmatches, -⟩
    · rw [hprepare] at herror
      cases herror
    · rw [hprepare] at hprepared
      cases hprepared
      rw [hsizes] at hmatches
      refine ⟨_, _, ready, hprepare, hvalid, ?_, hmatches.budget, ?_⟩
      · exact Int.ofNat.inj hmatches.capacity
      · exact Int.ofNat.inj hmatches.locals
  · have hlarge : ¬ (Options.sizes { o with stackCapacity := 1048577 }
        (Sizes.ofFile session.files o.settingsFile)).InRange :=
      fun h => absurd h.capacity_le (by decide)
    obtain ⟨e, after, -, hrun, huntouched⟩ :=
      (run_valid_and_sized 5 "" { o with stackCapacity := 1048577 } session).1 (.inr hlarge)
    exact ⟨e, after, hrun, huntouched⟩

end Runner

end StackMachine
