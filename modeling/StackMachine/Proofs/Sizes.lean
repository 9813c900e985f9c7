import Mathlib
import StackMachine.Settings.File

/-!
# Sizes that settings ask for

The sizes of a machine come from the entries of a document in the table about the machine, where the
last one for a key counts, and from the defaults for keys that have none. `Sizes.ofFile` says so for
the file that is read, and what is loaded from it has these sizes (`Settings.sizes_of_load`). They
are within their ranges exactly if the settings have no defect (`Settings.defect?_eq_none_iff`).
-/

namespace StackMachine

/-! ## Ranges -/

/-- The sizes of a machine and its step limit, as settings ask for them. -/
structure Sizes where
  capacity : Int64 := 100
  /-- Those of the image if this is zero. -/
  locals : Int64 := 0
  /-- None if this is zero. -/
  maxSteps : Int64 := 0
  deriving DecidableEq

/-- The sizes are within the ranges that are documented. -/
structure Sizes.InRange (s : Sizes) : Prop where
  one_le_capacity : 1 ≤ s.capacity.toInt
  capacity_le : s.capacity.toInt ≤ 2 ^ 20
  locals_nonneg : 0 ≤ s.locals.toInt
  locals_le : s.locals.toInt ≤ 2 ^ 20
  maxSteps_nonneg : 0 ≤ s.maxSteps.toInt

namespace Settings

/-- The sizes that settings ask for. -/
def sizes (s : Settings) : Sizes :=
  ⟨s.stackCapacity, s.locals, s.maxSteps⟩

/-- Settings can be used exactly if their sizes are within the ranges. -/
theorem defect?_eq_none_iff (s : Settings) : s.defect? = none ↔ s.sizes.InRange := by
  have hcapacity : s.stackCapacity ≤ 0 ↔ s.stackCapacity.toInt ≤ 0 := Int64.le_iff_toInt_le
  have hlocals : s.locals < 0 ↔ s.locals.toInt < 0 := Int64.lt_iff_toInt_lt
  have hsteps : s.maxSteps < 0 ↔ s.maxSteps.toInt < 0 := Int64.lt_iff_toInt_lt
  have hmaxCapacity : (Machine.maxCapacity : Int) = 2 ^ 20 := by decide
  have hmaxLocals : (Machine.maxLocals : Int) = 2 ^ 20 := by decide
  simp only [defect?, hcapacity, hlocals, hsteps, hmaxCapacity, hmaxLocals]
  constructor
  · intro h
    -- Each check that was passed leaves one of the bounds.
    split at h
    · cases h
    split at h
    · cases h
    split at h
    · cases h
    split at h
    · cases h
    split at h
    · cases h
    constructor <;> simp only [sizes] <;> omega
  · rintro ⟨h1, h2, h3, h4, h5⟩
    simp only [sizes] at h1 h2 h3 h4 h5
    rw [if_neg (by omega), if_neg (by omega), if_neg (by omega), if_neg (by omega),
      if_neg (by omega)]

/-! ## Documents -/

/-- The entries of a document in the table about the machine. -/
def machineEntries (root : Toml.Table) : Toml.Table :=
  root.flatMap fun (name, value) =>
    if fold name = "machine" then (entries value).toOption.getD [] else []

/-- The word that entries give for a key, the last one if there are several. -/
def lastWord? (key : String) (table : Toml.Table) : Option Int64 :=
  table.reverse.findSome? fun (name, value) =>
    if fold name = key then (integer value).toOption else none

/-- What `set` makes of an entry has the word that `word?` finds in it, if it finds one, where `get`
looks for it. -/
def Tracks (set : Settings → String → Toml.Value → Except Toml.Error (Option Settings))
    (get : Settings → Int64) (word? : String → Toml.Value → Option Int64) : Prop :=
  ∀ ⦃s key value next⦄, set s key value = .ok next →
    get (next.getD s) = (word? key value).getD (get s)

/-- The last of two words that may be there. -/
theorem getD_or (last first : Option Int64) (w : Int64) :
    (last.or first).getD w = last.getD (first.getD w) := by
  cases last with
  | none => rfl
  | some v => rfl

/-- Entries are taken one after another, so that the last one counts. -/
theorem setEntries_of_tracks
    {set : Settings → String → Toml.Value → Except Toml.Error (Option Settings)}
    {get : Settings → Int64} {word? : String → Toml.Value → Option Int64}
    (h : Tracks set get word?) {table : String} {t : Toml.Table} {p p' : Progress}
    (hset : setEntries set table p t = .ok p') :
    get p'.settings =
      (t.reverse.findSome? fun (name, value) => word? (fold name) value).getD (get p.settings) := by
  -- What is found in the entries behind the first one goes before what the first one sets.
  induction t generalizing p with
  | nil =>
    cases hset
    rfl
  | cons entry t ih =>
    obtain ⟨name, value⟩ := entry
    cases hnext : set p.settings (fold name) value with
    | error e =>
      simp only [setEntries, hnext, bind, Except.bind] at hset
      cases hset
    | ok next =>
      have hfirst : get (next.getD p.settings) =
          ([(name, value)].findSome? fun (name, value) => word? (fold name) value).getD
            (get p.settings) := by
        rw [h hnext]
        cases hword : word? (fold name) value <;> simp [hword]
      simp only [setEntries, hnext, bind, Except.bind] at hset
      rw [List.reverse_cons, List.findSome?_append, getD_or, ← hfirst]
      cases next with
      | none => exact ih hset
      | some s => exact ih hset

/-- The settings that are sizes. -/
inductive Size where
  | capacity
  | locals
  | maxSteps

namespace Size

/-- The key of a size. -/
def key : Size → String
  | .capacity => "stack_capacity"
  | .locals => "locals"
  | .maxSteps => "max_steps"

/-- The word that is asked for. -/
def get (s : Settings) : Size → Int64
  | .capacity => s.stackCapacity
  | .locals => s.locals
  | .maxSteps => s.maxSteps

end Size

/-- In the table about the machine the entries with the key of a size set that size. -/
theorem tracks_setMachine (size : Size) : Tracks setMachine (Size.get · size)
    fun key value => if key = size.key then (integer value).toOption else none := by
  intro s key value next hset
  unfold setMachine at hset
  dsimp only
  -- The three keys of sizes, and all other keys. A size is set where its value is an integer.
  generalize integer value = found at hset ⊢
  split at hset
  · cases found <;> cases hset
    cases size <;> rfl
  · cases found <;> cases hset
    cases size <;> rfl
  · cases found <;> cases hset
    cases size <;> rfl
  · next hcapacity hlocals hsteps =>
    have hother : key ≠ size.key := by
      cases size with
      | capacity => exact hcapacity
      | locals => exact hlocals
      | maxSteps => exact hsteps
    cases hset
    rw [if_neg hother]
    rfl

/-- No entry of the table about the output sets a size. -/
theorem tracks_setOutput (size : Size) : Tracks setOutput (Size.get · size) fun _ _ => none := by
  intro s key value next hset
  unfold setOutput at hset
  generalize boolean value = found at hset
  split at hset
  · cases found <;> cases hset
    cases size <;> rfl
  · cases found <;> cases hset
    cases size <;> rfl
  · cases found <;> cases hset
    cases size <;> rfl
  · cases hset
    rfl

/-- The tables of a document are taken one after another. -/
theorem get_of_setTables (size : Size) {root : Toml.Table} {p p' : Progress}
    (hset : setTables p root = .ok p') :
    size.get p'.settings =
      (lastWord? size.key (machineEntries root)).getD (size.get p.settings) := by
  -- Tables of the same name add up, as if their entries stood in one.
  induction root generalizing p with
  | nil =>
    cases hset
    rfl
  | cons entry root ih =>
    obtain ⟨name, value⟩ := entry
    have happend : lastWord? size.key (machineEntries ((name, value) :: root)) =
        (lastWord? size.key (machineEntries root)).or
          (lastWord? size.key (machineEntries [(name, value)])) := by
      simp [lastWord?, machineEntries, List.findSome?_append]
    have hother (hname : fold name ≠ "machine") :
        lastWord? size.key (machineEntries [(name, value)]) = none := by
      simp [machineEntries, hname, lastWord?]
    rw [happend, getD_or]
    simp only [setTables] at hset
    -- A table about the machine, one about the output, and one that is neither.
    split at hset
    · next hname =>
      cases htable : entries value with
      | error e =>
        rw [htable] at hset
        cases hset
      | ok t =>
        have hentries : machineEntries [(name, value)] = t := by
          simp [machineEntries, hname, htable, Except.toOption]
        simp only [htable, bind, Except.bind] at hset
        split at hset
        · cases hset
        · next q hq =>
          rw [ih hset, setEntries_of_tracks (tracks_setMachine size) hq, hentries]
          rfl
    · next hname =>
      cases htable : entries value with
      | error e =>
        rw [htable] at hset
        cases hset
      | ok t =>
        simp only [htable, bind, Except.bind] at hset
        split at hset
        · cases hset
        · next q hq =>
          have hkept : (t.reverse.findSome? fun _ => (none : Option Int64)) = none := by simp
          rw [ih hset, setEntries_of_tracks (tracks_setOutput size) hq, hkept,
            hother (by rw [hname]; decide)]
    · next hmachine _ =>
      rw [ih hset, hother hmachine]
      rfl

end Settings

/-! ## Files -/

namespace Settings

/-- The word that the file at a path gives for a size, if there is a document in it. -/
def fileWord? (files : Files) (path : String) (size : Size) : Option Int64 := do
  let contents ← (files.read (source path)).toOption
  let document ← (Toml.Document.ofBytes contents).toOption
  lastWord? size.key (machineEntries document.root)

end Settings

/-- The sizes that a file asks for: the defaults are left for what it does not give. -/
def Sizes.ofFile (files : Files) (path : String) : Sizes where
  capacity := (Settings.fileWord? files path .capacity).getD 100
  locals := (Settings.fileWord? files path .locals).getD 0
  maxSteps := (Settings.fileWord? files path .maxSteps).getD 0

namespace Settings

/-- Settings that are read come from the tables of a document, and can be used. -/
theorem ofBytes_eq_ok {path : String} {bs : Bytes} {s : Settings} (h : ofBytes path bs = .ok s) :
    ∃ document p, Toml.Document.ofBytes bs = .ok document ∧
      setTables {} document.root = .ok p ∧ s = { p.settings with path } ∧ s.defect? = none := by
  unfold ofBytes at h
  cases hdocument : Toml.Document.ofBytes bs with
  | error e =>
    rw [hdocument] at h
    cases h
  | ok document =>
    simp only [hdocument, Except.mapError, bind, Except.bind] at h
    cases htables : setTables {} document.root with
    | error e =>
      rw [htables] at h
      cases h
    | ok p =>
      simp only [htables] at h
      split at h
      · cases h
      · split at h
        · cases h
        · next hdefect =>
          cases h
          exact ⟨document, p, rfl, htables, rfl, hdefect⟩

/-- Settings that are loaded have the sizes that their file asks for, and these are within the
ranges. -/
theorem sizes_of_load {files : Files} {path : String} {s : Settings} (h : load files path = .ok s) :
    s.sizes = Sizes.ofFile files path ∧ s.sizes.InRange := by
  unfold load at h
  cases hread : files.read (source path) with
  | error cause =>
    simp only [hread] at h
    split at h
    · -- Without a file all sizes are the default ones.
      cases h
      have hnone (size : Size) : fileWord? files path size = none := by
        simp [fileWord?, hread, Except.toOption]
      refine ⟨?_, (defect?_eq_none_iff {}).1 (by decide)⟩
      simp only [Sizes.ofFile, hnone]
      rfl
    · cases h
  | ok contents =>
    simp only [hread] at h
    cases hbytes : ofBytes (source path) contents with
    | error e =>
      rw [hbytes] at h
      cases h
    | ok s' =>
      rw [hbytes] at h
      cases h
      obtain ⟨document, p, hdocument, htables, rfl, hdefect⟩ := ofBytes_eq_ok hbytes
      -- A size that the file does not give is the one that settings start with.
      have hword (size : Size) :
          size.get p.settings = (fileWord? files path size).getD (size.get {}) := by
        rw [get_of_setTables size htables]
        simp [fileWord?, hread, hdocument, Except.toOption]
      refine ⟨?_, (defect?_eq_none_iff _).1 hdefect⟩
      have hcapacity := hword .capacity
      have hlocals := hword .locals
      have hsteps := hword .maxSteps
      simp only [Size.get] at hcapacity hlocals hsteps
      simp only [sizes, Sizes.ofFile, hcapacity, hlocals, hsteps]
      rfl

end Settings

end StackMachine
