import StackMachine.Proofs.Files
import StackMachine.Proofs.ImageCbor
import StackMachine.Proofs.ImageYaml

/-!
# Conversion between files

`Image.convertAll` saves an image to one file after another, and each time goes on with what it
loads from there. An image that a machine can run and that both formats can hold is decoded as it
was written (`decode_write`), so that nothing is lost on the way, however long it is
(`conversion_lossless`). An image without a name is an exception: it takes that of its first file.
-/

namespace StackMachine

namespace Path

/-! ## Names of files -/

/-- The extension of a path ends its last part. -/
theorem extension_isSuffix_base (path : String) :
    (extension path).toList <:+ (base path).toList := by
  generalize hreversed : path.toList.reverse = reversed
  unfold extension base
  dsimp only
  rw [hreversed]
  split
  · next rest hdot =>
    -- No slash stands behind the last dot, so that the last part goes back over the dot.
    generalize htail : reversed.takeWhile (fun c => c != '.' && c != '/') = tail
    have hsplit : reversed = tail ++ '.' :: rest := by
      rw [← hdot, ← htail, List.takeWhile_append_dropWhile]
    have hinside : ∀ c ∈ tail ++ ['.'], (c != '/') = true := by
      intro c hc
      rcases List.mem_append.1 hc with hc | hc
      · rw [← htail] at hc
        have hboth := List.mem_takeWhile_imp hc
        exact (Bool.and_eq_true_iff.1 hboth).2
      · rw [List.mem_singleton.1 hc]
        decide
    have hslash : reversed.dropWhile (· == '/') = reversed := by
      cases tail with
      | nil => rw [hsplit]; rfl
      | cons c tail =>
        have hc : c ≠ '/' := bne_iff_ne.1 (hinside c List.mem_cons_self)
        rw [hsplit]
        exact List.dropWhile_cons_of_neg (by simpa using hc)
    have hlast : reversed.takeWhile (· != '/') = tail ++ '.' :: rest.takeWhile (· != '/') := by
      have happend : reversed = (tail ++ ['.']) ++ rest := by
        rw [hsplit, List.append_assoc]
        rfl
      rw [happend, List.takeWhile_append_of_pos hinside]
      simp
    rw [hslash]
    split
    · exact absurd hsplit (by simp)
    · rw [hlast]
      exact ⟨(rest.takeWhile (· != '/')).reverse, by simp⟩
  · exact List.nil_suffix

/-- What is left of the last part of a path without the extension is the stem. -/
theorem stem_append_extension (path : String) : stem path ++ extension path = base path := by
  have hsuffix := extension_isSuffix_base path
  obtain ⟨front, hfront⟩ := hsuffix
  rw [← String.toList_inj, String.toList_append, stem]
  rw [if_pos (List.isSuffixOf_iff_suffix.2 ⟨front, hfront⟩), String.toList_ofList, ← hfront]
  simp

end Path

namespace Image

/-! ## Conversion -/

/-- A task on files. A task that fails leaves them as they are at that moment. -/
abbrev FileTask := EStateM FileError Files

/-- Saves an image at a path. -/
def saveTo (path : String) (image : Image) : FileTask Unit := do
  match save (← get) path image with
  | .ok files => set files
  | .error e => throw e

/-- Loads the image at a path. -/
def loadFrom (path : String) : FileTask Image := do
  match load (← get) path with
  | .ok image => return image
  | .error e => throw e

/-- Saves an image at a path and loads it from there. -/
def convert (path : String) (image : Image) : FileTask Image := do
  saveTo path image
  loadFrom path

/-- Saves an image at the first of some paths, what is loaded from there at the next one, and so on.
All that has been loaded is the result. -/
def convertAll : List String → Image → FileTask (List Image)
  | [], _ => return []
  | path :: paths, image => do
    let loaded ← convert path image
    return loaded :: (← convertAll paths loaded)

variable {image : Image} {files : Files} {path : String}

/-- Saving changes the files. -/
theorem saveTo_of_ok {files' : Files} (h : save files path image = .ok files') :
    saveTo path image files = .ok () files' := by
  simp only [saveTo, bind, EStateM.bind, get, getThe, MonadStateOf.get, EStateM.get, h]
  rfl

/-- Where saving fails, the files stay as they are. -/
theorem saveTo_of_error {e : FileError} (h : save files path image = .error e) :
    saveTo path image files = .error e files := by
  simp only [saveTo, bind, EStateM.bind, get, getThe, MonadStateOf.get, EStateM.get, h]
  rfl

/-- Loading leaves the files as they are. -/
theorem loadFrom_of_ok (h : load files path = .ok image) :
    loadFrom path files = .ok image files := by
  simp only [loadFrom, bind, EStateM.bind, get, getThe, MonadStateOf.get, EStateM.get, h]
  rfl

/-- So does a failure to load. -/
theorem loadFrom_of_error {e : FileError} (h : load files path = .error e) :
    loadFrom path files = .error e files := by
  simp only [loadFrom, bind, EStateM.bind, get, getThe, MonadStateOf.get, EStateM.get, h]
  rfl

/-- An image that a machine can run is decoded from what is written of it, in either format. -/
theorem decode_write (hvalid : image.defect? = none) (hfits : image.FitsCbor)
    (hname : ∀ c ∈ image.name.toList, Yaml.Written.isName c = true) (format : Format) :
    decode (some format) (image.write format) = .ok image := by
  have hread : read format (image.write format) = .ok image := by
    cases format with
    | cbor =>
      rw [write, read, ofCbor_toCbor hfits]
      rfl
    | yaml =>
      -- There is code, since without any the image would be rejected.
      have hcode : image.code = some image.words := by
        cases heq : image.code with
        | none =>
          have hwords : image.words.size = 0 := by rw [words, heq]; rfl
          rw [defect?, if_pos hwords] at hvalid
          cases hvalid
        | some code => rw [words, heq, Option.getD_some]
      rw [write, read, ofYaml_toYaml hname, ← hcode]
      rfl
  rw [decode, hread]
  simp only [bind, Except.bind, hvalid]

/-- A path of known format that can be written takes an image and gives it back with a name. All
that changes is the file at that path. -/
theorem convert_of_writable (hvalid : image.defect? = none) (hfits : image.FitsCbor)
    (hname : ∀ c ∈ image.name.toList, Yaml.Written.isName c = true)
    (hwritable : files.Writable path) (hformat : (Format.ofPath? path).isSome = true) :
    ∃ contents files', files.write path contents = .ok files' ∧
      convert path image files = .ok (image.named (Path.stem path)) files' := by
  obtain ⟨format, hformat⟩ := Option.isSome_iff_exists.1 hformat
  obtain ⟨files', hwritten, hsaved⟩ := save_of_writable image hformat hwritable
  have hloaded : load files' path = .ok (image.named (Path.stem path)) := by
    rw [load_of_read hformat (Files.read_of_write hwritten),
      decode_write hvalid hfits hname format]
    rfl
  refine ⟨image.write format, files', hwritten, ?_⟩
  simp only [convert, bind, EStateM.bind, saveTo_of_ok hsaved, loadFrom_of_ok hloaded]

/-- An image with a name goes through any number of files unchanged. -/
theorem convertAll_of_writable (hvalid : image.defect? = none) (hfits : image.FitsCbor)
    (hname : ∀ c ∈ image.name.toList, Yaml.Written.isName c = true) (hnamed : image.name ≠ "")
    {paths : List String}
    (hpaths : ∀ path ∈ paths, files.Writable path ∧ (Format.ofPath? path).isSome = true) :
    ∃ files', convertAll paths image files = .ok (List.replicate paths.length image) files' := by
  -- Whatever is written, the paths that are left can still be written.
  induction paths generalizing files with
  | nil => exact ⟨files, rfl⟩
  | cons path paths ih =>
    obtain ⟨hwritable, hformat⟩ := hpaths path List.mem_cons_self
    obtain ⟨contents, files₁, hwritten, hconvert⟩ :=
      convert_of_writable hvalid hfits hname hwritable hformat
    rw [named, if_neg hnamed] at hconvert
    obtain ⟨files₂, hrest⟩ := ih fun other hother =>
      have ⟨hwritable, hformat⟩ := hpaths other (List.mem_cons_of_mem path hother)
      ⟨hwritable.of_write hwritten, hformat⟩
    refine ⟨files₂, ?_⟩
    simp only [convertAll, bind, EStateM.bind, hconvert, hrest]
    rfl

/-- A path of unknown format takes and gives nothing, and all files stay as they are. -/
theorem unknownFormat_unchanged (hformat : Format.ofPath? path = none) (image : Image)
    (files : Files) :
    saveTo path image files = .error (.unknownFormat path) files ∧
      loadFrom path files = .error (.unknownFormat path) files := by
  have hsave : save files path image = .error (.unknownFormat path) := by rw [save, hformat]
  have hload : load files path = .error (.unknownFormat path) := by rw [load, hformat]
  exact ⟨saveTo_of_error hsave, loadFrom_of_error hload⟩

/-- Let an image be one that a machine can run, with a name of letters, digits and underscores and
code that is not too long. If it has a name, then it goes through any number of files in either
format, which may come up again and again, and every time what is loaded is the image itself. If it
has no name, then what is loaded from the first file differs in the name alone, which is the last
part of the path without its extension. A path of unknown format is neither saved to nor loaded
from, and changes no file. -/
theorem conversion_lossless (hvalid : image.defect? = none) (hfits : image.FitsCbor)
    (hname : ∀ c ∈ image.name.toList, Yaml.Written.isName c = true) {paths : List String}
    (hpaths : ∀ path ∈ paths, files.Writable path ∧ (Format.ofPath? path).isSome = true) :
    (image.name ≠ "" →
      ∃ files', convertAll paths image files = .ok (List.replicate paths.length image) files') ∧
    (image.name = "" → ∀ path ∈ paths, ∃ name files',
      convert path image files = .ok { image with name } files' ∧
        name ++ Path.extension path = Path.base path) ∧
    ∀ path, Format.ofPath? path = none → ∀ other : Image,
      saveTo path other files = .error (.unknownFormat path) files ∧
        loadFrom path files = .error (.unknownFormat path) files := by
  refine ⟨fun hnamed => convertAll_of_writable hvalid hfits hname hnamed hpaths, ?_, ?_⟩
  · intro hunnamed path hpath
    obtain ⟨hwritable, hformat⟩ := hpaths path hpath
    obtain ⟨_, files', -, hconvert⟩ := convert_of_writable hvalid hfits hname hwritable hformat
    rw [named, if_pos hunnamed] at hconvert
    exact ⟨Path.stem path, files', hconvert, Path.stem_append_extension path⟩
  · exact fun path hformat other => unknownFormat_unchanged hformat other files

/-- An image whose name looks like null goes from a file in one format to one in the other and back
to the first, and takes the name of its file if it has none itself. -/
theorem conversion_lossless_and_back :
    let image : Image := { name := "null", locals := 2, code := some #[18] }
    let unnamed : Image := { locals := 2, code := some #[18] }
    (∃ files, convertAll ["a.YML", "b.vmb", "a.YML"] image {} = .ok [image, image, image] files) ∧
      (∃ name files, convert "b.vmb" unnamed {} = .ok { unnamed with name } files ∧
        name ++ ".vmb" = "b.vmb") ∧
      saveTo "c.txt" image {} = .error (.unknownFormat "c.txt") {} := by
  intro image unnamed
  have hfirst : ({} : Files).Writable "a.YML" :=
    Files.writable_of_locate (Files.locate_of_name (by decide) (by decide) (by decide) (by decide)
      (by decide)) (by decide)
  have hsecond : ({} : Files).Writable "b.vmb" :=
    Files.writable_of_locate (Files.locate_of_name (by decide) (by decide) (by decide) (by decide)
      (by decide)) (by decide)
  have hpaths : ∀ path ∈ ["a.YML", "b.vmb", "a.YML"],
      ({} : Files).Writable path ∧ (Format.ofPath? path).isSome = true := by
    intro path hpath
    simp only [List.mem_cons, List.not_mem_nil, or_false] at hpath
    rcases hpath with rfl | rfl | rfl
    · exact ⟨hfirst, by decide⟩
    · exact ⟨hsecond, by decide⟩
    · exact ⟨hfirst, by decide⟩
  have hnamed := conversion_lossless (by decide : image.defect? = none) ⟨by decide, by decide⟩
    (List.all_eq_true.1 (by decide)) hpaths
  have hunnamed := conversion_lossless (by decide : unnamed.defect? = none) ⟨by decide, by decide⟩
    (List.all_eq_true.1 (by decide)) hpaths
  refine ⟨hnamed.1 (by decide), ?_, (hnamed.2.2 "c.txt" (by decide) image).1⟩
  obtain ⟨name, files, hconvert, hbase⟩ := hunnamed.2.1 rfl "b.vmb" (by decide)
  exact ⟨name, files, hconvert, hbase⟩

end Image

end StackMachine
