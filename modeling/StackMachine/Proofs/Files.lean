import Mathlib
import StackMachine.Image.File

/-!
# Files that are written

A path can be written if it leads to a place that is no directory. Writing there puts a file at that
place and changes nothing else. In particular every directory stays one, so that whatever path could
be written before still can (`Writable.of_write`), and what was written is read back
(`read_of_write`).
-/

namespace StackMachine

namespace Files

variable {files files' : Files} {path other : String} {place : Place} {contents : Bytes}

/-- Whatever the contents, a file with them can be written at the path. -/
def Writable (files : Files) (path : String) : Prop :=
  ∀ contents, ∃ files', files.write path contents = .ok files'

/-! ## Entries -/

/-- What is put at a place is there, unless the place is on the way home. -/
theorem get?_put_self (entry : Entry) (h : place.isPrefixOf files.home = false) :
    (files.put place entry).get? place = some entry := by
  -- The places on the way home are directories whatever the entries say, so these must not hide the
  -- entry.
  have hhome : ¬ place.isPrefixOf (files.put place entry).home = true := by
    rw [put, h]
    decide
  rw [get?, if_neg hhome]
  simp [put]

/-- Other places keep what they have. -/
theorem get?_put_of_ne (entry : Entry) {q : Place} (h : q ≠ place) :
    (files.put place entry).get? q = files.get? q := by
  -- An entry is put in front and the old ones of its place are filtered out. Neither is seen from
  -- another place.
  have hfilter (entries : List (Place × Entry)) :
      (entries.filter fun e => e.1 != place).lookup q = entries.lookup q := by
    induction entries with
    | nil => rfl
    | cons e entries ih =>
      obtain ⟨p, e⟩ := e
      by_cases hp : p = place
      · have hq : (q == p) = false := by
          rw [hp]
          exact beq_false_of_ne h
        simp [hp, List.lookup_cons, ← ih, hp ▸ hq]
      · simp [hp, List.lookup_cons, ih]
  have hfirst : ((place, entry) :: files.entries.filter fun e => e.1 != place).lookup q =
      files.entries.lookup q := by
    rw [List.lookup_cons, beq_false_of_ne h]
    exact hfilter files.entries
  unfold get? put
  dsimp only
  rw [hfirst]

/-! ## Ways -/

/-- Only from a directory does a way go on. -/
theorem get?_of_enter {p q : Place} {part : String} (h : files.enter p part = .ok q) :
    files.get? p = some .directory := by
  unfold enter at h
  split at h
  · cases h
  · cases h
  · assumption

/-- A step of a way depends on what is where it starts. -/
theorem enter_congr {p : Place} (part : String) (h : files'.get? p = files.get? p) :
    files'.enter p part = files.enter p part := by
  unfold enter
  rw [h]

/-- A file that is put where no directory is blocks no way. -/
theorem enterAll_put {p q : Place} {parts : List String}
    (hplace : files.get? place ≠ some .directory) (h : files.enterAll p parts = .ok q) :
    (files.put place (.file contents)).enterAll p parts = .ok q := by
  induction parts generalizing p with
  | nil => exact h
  | cons part parts ih =>
    rw [enterAll] at h ⊢
    cases hstep : files.enter p part with
    | error reason =>
      rw [hstep] at h
      cases h
    | ok next =>
      rw [hstep] at h
      -- A way goes on only from directories, and at the place there was none. So the way does not
      -- step on it before its end.
      have hne : p ≠ place := by
        rintro rfl
        exact hplace (get?_of_enter hstep)
      rw [enter_congr part (get?_put_of_ne _ hne), hstep]
      exact ih h

/-- A path that leads somewhere leads there after a file is put where no directory is. -/
theorem locate_put {q : Place} (hplace : files.get? place ≠ some .directory)
    (h : files.locate path = .ok q) :
    (files.put place (.file contents)).locate path = .ok q := by
  unfold locate at h ⊢
  -- The three reasons to refuse a path are about the path alone; only the way depends on the files.
  split at h
  · cases h
  split at h
  · cases h
  split at h
  · cases h
  · next hnul hempty hlong =>
    rw [if_neg hnul, if_neg hempty, if_neg hlong]
    exact enterAll_put hplace h

/-! ## Reading and writing -/

/-- Writing puts a file at the place of the path, which is no directory. -/
theorem write_eq_ok (h : files.write path contents = .ok files') :
    ∃ place, files.locate path = .ok place ∧ files.get? place ≠ some .directory ∧
      files' = files.put place (.file contents) := by
  unfold write at h
  cases hlocate : files.locate path with
  | error reason =>
    rw [hlocate] at h
    cases h
  | ok place =>
    rw [hlocate] at h
    dsimp only at h
    split at h
    · cases h
    · next hplace => exact ⟨place, rfl, hplace, (Except.ok.inj h).symm⟩

/-- A path that leads to no directory can be written. -/
theorem write_of_locate (hlocate : files.locate path = .ok place)
    (hplace : files.get? place ≠ some .directory) (contents : Bytes) :
    files.write path contents = .ok (files.put place (.file contents)) := by
  unfold write
  rw [hlocate]
  dsimp only
  split
  · next hdirectory => exact absurd hdirectory hplace
  · rfl

/-- No place on the way home is without its directory. -/
theorem isPrefixOf_home (hplace : files.get? place ≠ some .directory) :
    place.isPrefixOf files.home = false := by
  rw [Bool.eq_false_iff]
  intro hhome
  exact hplace (if_pos hhome)

/-- What was written is read back. -/
theorem read_of_write (h : files.write path contents = .ok files') :
    files'.read path = .ok contents := by
  obtain ⟨place, hlocate, hplace, rfl⟩ := write_eq_ok h
  rw [read, locate_put hplace hlocate]
  dsimp only
  rw [get?_put_self _ (isPrefixOf_home hplace)]

/-- A path without a slash is one part, and does not start at the root. -/
theorem parts_of_not_mem (h : '/' ∉ path.toList) : parts path = [path] ∧ isRooted path = false := by
  constructor
  · rw [parts, List.splitOn_eq_singleton h, List.map_singleton, String.ofList_toList]
  · exact beq_eq_false_iff_ne.2 fun hhead => h (List.mem_of_mem_head? hhead)

/-- A path of one name leads from home to that name. -/
theorem locate_of_name (hslash : '/' ∉ path.toList) (hnul : '\x00' ∉ path.toList)
    (hempty : path ≠ "") (hdots : path ∉ [".", ".."])
    (hlength : path.utf8ByteSize ≤ maxName) : files.locate path = .ok (files.home ++ [path]) := by
  obtain ⟨hparts, hrooted⟩ := parts_of_not_mem hslash
  have hhome : files.get? files.home = some .directory := if_pos (by simp)
  have hpath : ¬ maxPath < path.utf8ByteSize := by
    simp only [maxName, maxPath] at hlength ⊢
    omega
  have henter : files.enter files.home path = .ok (files.home ++ [path]) := by
    simp only [List.mem_cons, List.not_mem_nil, or_false, not_or] at hdots
    simp [enter, hhome, hempty, hdots, Nat.not_lt.2 hlength]
  simp [locate, hnul, hempty, hpath, hrooted, hparts, enterAll, henter, bind, Except.bind]

/-- A path can be written if it leads to no directory. -/
theorem writable_of_locate (hlocate : files.locate path = .ok place)
    (hfree : files.get? place ≠ some .directory) : files.Writable path :=
  fun contents => ⟨_, write_of_locate hlocate hfree contents⟩

/-- A path that can be written still can after something was written at the same path or another. -/
theorem Writable.of_write (hother : files.Writable other)
    (h : files.write path contents = .ok files') : files'.Writable other := by
  obtain ⟨place, -, hplace, rfl⟩ := write_eq_ok h
  -- Writing anything at the other path shows where it leads and that this is no directory.
  obtain ⟨_, hwritten⟩ := hother []
  obtain ⟨q, hlocate, hq, -⟩ := write_eq_ok hwritten
  have hq' : (files.put place (.file contents)).get? q ≠ some .directory := by
    -- Both paths may lead to one place, where there is a file now.
    by_cases hsame : q = place
    · rw [hsame, get?_put_self _ (isPrefixOf_home hplace)]
      exact fun hdirectory => nomatch hdirectory
    · rwa [get?_put_of_ne _ hsame]
  exact fun contents' => ⟨_, write_of_locate (locate_put hplace hlocate) hq' contents'⟩

end Files

/-! ## Images in files -/

namespace Image

variable {files : Files} {path : String} {format : Format}

/-- What is loaded from a file is what its contents are decoded as, with a name. -/
theorem load_of_read {contents : Bytes} (hformat : Format.ofPath? path = some format)
    (hread : files.read path = .ok contents) :
    load files path = ((decode (some format) contents).mapError (.undecodable path)).map
      (·.named (Path.stem path)) := by
  rw [load, hformat]
  simp only [hread, Except.mapError, Bind.bind, Except.bind]
  cases decode (some format) contents with
  | error e => rfl
  | ok image => rfl

/-- An image is saved where something can be written. -/
theorem save_of_writable (image : Image) (hformat : Format.ofPath? path = some format)
    (hwritable : files.Writable path) :
    ∃ files', files.write path (image.write format) = .ok files' ∧
      save files path image = .ok files' := by
  obtain ⟨files', hwritten⟩ := hwritable (image.write format)
  refine ⟨files', hwritten, ?_⟩
  rw [save, hformat]
  simp only [hwritten, Except.mapError]

end Image

end StackMachine
