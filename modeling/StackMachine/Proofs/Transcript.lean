import StackMachine.Proofs.Colors
import StackMachine.Proofs.Isolation
import StackMachine.Proofs.Listing
import StackMachine.Proofs.Sink

/-!
# What a run prints

A run prints up to three parts: the listing of its image, what the program prints, and the stack
that is left. `transcript` puts them together from the result of the run, and `Writes` says what a
task adds to the output, so that the parts of a run add theirs one after another.

The listing goes through the printer line by line. Without colours that changes nothing, since a
listing ends with exactly one line break, whatever its title. In colours a line is divided into
words and put together again with single spaces, and the title must not break its line.
-/

namespace StackMachine

/-! ## Lines -/

namespace Text

/-- A line break is one character. -/
theorem toList_break : "\n".toList = ['\n'] := by decide +kernel

/-- The lines of a text with the line breaks between them are the text. -/
theorem intercalate_lines (s : String) : "\n".intercalate (lines s) = s := by
  apply String.ext
  rw [String.toList_intercalate, toList_break, lines, List.map_map]
  simp only [Function.comp_def, String.toList_ofList, List.map_id']
  exact List.intercalate_splitOn '\n'

/-- A line break at the end starts a line that is empty. -/
theorem lines_append_break (s : String) : lines (s ++ "\n") = lines s ++ [""] := by
  unfold lines
  rw [String.toList_append, toList_break, List.splitOn_eq_splitOnP, List.splitOn_eq_splitOnP,
    List.splitOnP_append_cons _ _ (by decide), List.splitOnP_nil, List.map_append]
  rfl

/-- Lines that are each ended by a line break are followed by one that is empty. -/
theorem join_breaks (ls : List String) :
    String.join (ls.map (· ++ "\n")) = "\n".intercalate (ls ++ [""]) := by
  induction ls with
  | nil => rfl
  | cons l ls ih =>
    have hne : ls ++ [""] ≠ [] := by simp
    rw [List.map_cons, String.join_cons, ih, List.cons_append,
      String.intercalate_cons_of_ne_nil hne]

/-- Lines that hold no line break are read back from the text. -/
theorem lines_join {ls : List String} (h : ∀ l ∈ ls, '\n' ∉ l.toList) :
    lines (String.join (ls.map (· ++ "\n"))) = ls ++ [""] := by
  have hlist : (String.join (ls.map (· ++ "\n"))).toList = ls.flatMap (·.toList ++ ['\n']) := by
    simp only [String.toList_join, List.flatMap_map, String.toList_append, toList_break]
  rw [lines, hlist, List.splitOn_eq_splitOnP, Listing.splitOnP_flatMap h, List.map_append,
    List.map_map]
  simp [Function.comp_def]

/-- The text with single spaces between the words of each line. -/
def tidy (s : String) : String :=
  "\n".intercalate ((lines s).map Palette.spaced)

/-- A text that ends with a line break, line by line. -/
theorem tidy_append_break (s : String) :
    tidy (s ++ "\n") = String.join ((lines s).map fun l => Palette.spaced l ++ "\n") := by
  have hempty : Palette.spaced "" = "" := by
    rw [Palette.spaced, words_empty, String.intercalate_nil]
  have hjoin := join_breaks ((lines s).map Palette.spaced)
  rw [List.map_map] at hjoin
  rw [tidy, lines_append_break, List.map_append, List.map_singleton, hempty]
  exact hjoin.symm

end Text

namespace Listing

open Text

/-- The title line of a listing. -/
def heading (title : String) : String :=
  "==" ++ (" " ++ title) ++ (" " ++ "==")

/-- A listing line by line. -/
theorem text_eq_join (code : Array Int64) (title : String) :
    text code title = String.join ((heading title :: lines code).map (· ++ "\n")) := by
  apply String.ext
  rw [toList_text]
  simp [heading, String.toList_join, List.flatMap_map]

/-- The words of the title line are those of the title between two signs. -/
theorem words_heading (title : String) :
    words (heading title) = "==" :: (words title ++ ["=="]) := by
  have hsign : words "==" = ["=="] := by decide +kernel
  rw [heading, words_append_space, words_append_space, hsign]
  rfl

/-- Every line has two words at least. -/
theorem two_le_length_words {title l : String} {code : Array Int64}
    (h : l ∈ heading title :: lines code) : 2 ≤ (words l).length := by
  rcases List.mem_cons.1 h with rfl | hl
  · rw [words_heading]
    simp
  · obtain ⟨i, hi, rfl⟩ := List.mem_map.1 hl
    rw [words_line (Instruction.length_operands_le_of_mem hi), fields]
    simp

/-- No line ends with a line break of its own. -/
theorem getLast?_of_mem_lines {title l : String} {code : Array Int64}
    (h : l ∈ heading title :: lines code) : ∃ c, l.toList.getLast? = some c ∧ c ≠ '\n' := by
  rcases List.mem_cons.1 h with rfl | hl
  · have hsign : (" " ++ "==").toList = [' ', '=', '='] := by decide +kernel
    refine ⟨'=', ?_, by decide⟩
    rw [heading, String.toList_append, hsign, List.getLast?_append]
    rfl
  · cases hlast : l.toList.getLast? with
    | none =>
      -- An empty line would have no words.
      have hwords := two_le_length_words h
      rw [String.toList_eq_nil_iff.1 (List.getLast?_eq_none_iff.1 hlast), words_empty] at hwords
      exact absurd hwords (by decide)
    | some c =>
      refine ⟨c, rfl, ?_⟩
      rintro rfl
      exact (not_mem_of_mem_lines hl).1 (List.mem_of_getLast? hlast)

end Listing

/-! ## The printed listing -/

namespace Runner

open Text

/-- The text of a listing in the colours of a palette. -/
def paintListing (p : Palette) (listing : String) : String :=
  String.join ((listingLines p listing).map (· ++ "\n"))

/-- The one line break at the end of a text is taken off. -/
theorem withoutLineEnds_append_break {body : String} (h : body.toList.getLast? ≠ some '\n') :
    withoutLineEnds (body ++ "\n") = body := by
  -- Line breaks are taken off from the end of the text, where there is only the one that is added.
  have hkept : body.toList.reverse.dropWhile (· == '\n') = body.toList.reverse := by
    rw [List.getLast?_eq_head?_reverse] at h
    cases hrev : body.toList.reverse with
    | nil => rfl
    | cons c cs =>
      rw [hrev, List.head?_cons] at h
      exact List.dropWhile_cons_of_neg fun hc => h (congrArg some (beq_iff_eq.1 hc))
  unfold withoutLineEnds
  rw [String.toList_append, toList_break, List.reverse_append, List.reverse_singleton,
    List.singleton_append, List.dropWhile_cons_of_pos (by decide), hkept, List.reverse_reverse,
    String.ofList_toList]

/-- A listing ends with one line break and no more. -/
theorem listing_eq (image : Image) :
    withoutLineEnds image.listing ++ "\n" = image.listing := by
  -- A listing has a title line at least, so there is a last line to look at.
  obtain ⟨front, last, hlines⟩ : ∃ front last,
      Listing.heading image.title :: Listing.lines image.words = front ++ [last] :=
    ⟨_, _, (List.dropLast_append_getLast (List.cons_ne_nil _ _)).symm⟩
  have hmem : last ∈ Listing.heading image.title :: Listing.lines image.words := by
    rw [hlines]
    simp
  obtain ⟨c, hlast, hc⟩ := Listing.getLast?_of_mem_lines hmem
  have hbody : image.listing = (String.join (front.map (· ++ "\n")) ++ last) ++ "\n" := by
    rw [Image.listing, Listing.text_eq_join, hlines, List.map_append, String.join_append,
      List.map_singleton, String.join_cons, String.join_nil, String.append_empty,
      String.append_assoc]
  have hend : (String.join (front.map (· ++ "\n")) ++ last).toList.getLast? ≠ some '\n' := by
    rw [String.toList_append, List.getLast?_append, hlast, Option.some_or]
    exact fun heq => hc (Option.some.inj heq)
  rw [hbody, withoutLineEnds_append_break hend]

/-- Without colours the listing is printed as it is. -/
theorem paintListing_disabled (image : Image) :
    paintListing { enabled := false } image.listing = image.listing := by
  have hself : listingLines { enabled := false } image.listing =
      lines (withoutLineEnds image.listing) := List.map_id _
  rw [paintListing, hself, join_breaks, ← lines_append_break, intercalate_lines, listing_eq]

/-- The lines of a listing whose title breaks no line. -/
theorem lines_withoutLineEnds {image : Image} (h : '\n' ∉ image.title.toList) :
    lines (withoutLineEnds image.listing) =
      Listing.heading image.title :: Listing.lines image.words := by
  have hunbroken : ∀ l ∈ Listing.heading image.title :: Listing.lines image.words,
      '\n' ∉ l.toList := by
    intro l hl
    rcases List.mem_cons.1 hl with rfl | hl
    · simpa [Listing.heading] using h
    · exact (Listing.not_mem_of_mem_lines hl).1
  have hlines := lines_join hunbroken
  rw [← Listing.text_eq_join] at hlines
  have hlisting : lines image.listing = _ := hlines
  -- The break at the end of the listing makes an empty last line on both sides.
  rw [← listing_eq image, lines_append_break] at hlisting
  exact List.append_cancel_right hlisting

/-- A title is free of characters that the name is free of, if the default title is. -/
theorem not_mem_title {image : Image} {c : Char} (h : c ∉ image.name.toList)
    (hdefault : c ∉ "image".toList) : c ∉ image.title.toList := by
  unfold Image.title
  split
  · exact hdefault
  · exact h

/-- In colours the listing reads with single spaces between the words of each line, if the name has
neither line breaks nor escape characters. -/
theorem reads_paintListing {image : Image} (hbreak : '\n' ∉ image.name.toList)
    (hescape : Palette.escape ∉ image.name.toList) :
    Palette.Reads (paintListing { enabled := true } image.listing) (tidy image.listing) := by
  have hlines := lines_withoutLineEnds (not_mem_title hbreak (by decide +kernel))
  have htitle := not_mem_title hescape (by decide +kernel)
  have hplain : ∀ l ∈ Listing.heading image.title :: Listing.lines image.words,
      Palette.escape ∉ l.toList := by
    intro l hl
    rcases List.mem_cons.1 hl with rfl | hl
    · simpa [Listing.heading, Palette.escape] using htitle
    · -- The title has no escape character by the hypothesis, and the other lines hold ink only.
      obtain ⟨i, hi, rfl⟩ := List.mem_map.1 hl
      exact fun hc => absurd
        (Listing.ink_of_mem_line (Instruction.length_operands_le_of_mem hi) hc) (by decide)
  have htidy := tidy_append_break (withoutLineEnds image.listing)
  rw [listing_eq] at htidy
  rw [htidy, paintListing, listingLines, List.map_map]
  refine Palette.reads_join fun l hl => ?_
  rw [hlines] at hl
  exact (Palette.reads_listing (Listing.two_le_length_words hl) (hplain l hl)).append
    (Palette.reads_self (by decide +kernel))

/-! ## The printed stack -/

/-- What is printed of a stack: a heading, and one line for each slot from the top to the bottom. -/
def stackText (stack : List Int64) : String :=
  "=== Residual Stack ===" ++ "\n" ++
    if stack = [] then "(empty)" ++ "\n"
    else String.join ((List.range stack.length).reverse.map fun i =>
      Decimal.ofNat i ++ ": " ++ Decimal.ofWord (stack.getD i 0) ++ "\n")

/-- The same in the colours of a palette. -/
def paintStack (p : Palette) (stack : List Int64) : String :=
  p.green "=== Residual Stack ===" ++ "\n" ++ String.join ((stackLines p stack).map (· ++ "\n"))

/-- The lines of a stack by their slots. -/
theorem stackLines_eq (p : Palette) {stack : List Int64} (h : stack ≠ []) :
    stackLines p stack = (List.range stack.length).reverse.map fun i =>
      p.cyan (Decimal.ofNat i) ++ ": " ++ Decimal.ofWord (stack.getD i 0) := by
  have hslots : (stack.zipIdx.map fun slot =>
      p.cyan (Decimal.ofNat slot.2) ++ ": " ++ Decimal.ofWord slot.1) =
      (List.range stack.length).map fun i =>
        p.cyan (Decimal.ofNat i) ++ ": " ++ Decimal.ofWord (stack.getD i 0) := by
    apply List.ext_getElem
    · simp
    · intro i hi hi'
      have hlt : i < stack.length := by simpa using hi
      simp [hlt]
  cases stack with
  | nil => exact absurd rfl h
  | cons v rest =>
    rw [List.map_reverse, ← hslots]
    rfl

/-- Numerals hold no escape character. -/
theorem escape_not_mem_ofInt (n : Int) : Palette.escape ∉ (Decimal.ofInt n).toList :=
  fun hc => absurd (Decimal.isSymbol_of_mem_ofInt hc) (by decide)

/-- A stack reads the same in colours. -/
theorem reads_paintStack (p : Palette) (stack : List Int64) :
    Palette.Reads (paintStack p stack) (stackText stack) := by
  have hbreak : Palette.Reads "\n" "\n" := Palette.reads_self (by decide +kernel)
  have hheading : Palette.Reads (p.green "=== Residual Stack ===") "=== Residual Stack ===" :=
    Palette.reads_paint p (by simp [Palette.sequences]) (by decide +kernel)
  refine (hheading.append hbreak).append ?_
  by_cases hempty : stack = []
  · have hword : Palette.Reads (p.gray "(empty)") "(empty)" :=
      Palette.reads_paint p (by simp [Palette.sequences]) (by decide +kernel)
    subst hempty
    rw [if_pos rfl, stackLines, List.map_singleton, String.join_cons, String.join_nil,
      String.append_empty]
    exact hword.append hbreak
  · rw [if_neg hempty, stackLines_eq p hempty, List.map_map]
    refine Palette.reads_join fun i _ => ((Palette.Reads.append ?_ ?_).append ?_).append hbreak
    · exact Palette.reads_paint p (by simp [Palette.sequences]) (escape_not_mem_ofInt i)
    · exact Palette.reads_self (by decide +kernel)
    · exact Palette.reads_self (escape_not_mem_ofInt _)

/-- Without colours it is the same. -/
theorem paintStack_disabled (stack : List Int64) :
    paintStack { enabled := false } stack = stackText stack := by
  unfold paintStack stackText
  by_cases hempty : stack = []
  · subst hempty
    rfl
  · rw [if_neg hempty, stackLines_eq _ hempty, List.map_map]
    rfl

/-! ## Tasks that print -/

/-- With the palette `p` and the outlet `q`, the task adds `text` to the output and leaves both
alone, if it does not fail. -/
def Writes {α : Type} (p : Palette) (q : Outlet) (t : Task α) (text : String) : Prop :=
  ∀ session a after, session.palette = p → session.outlet = q → t session = .ok a after →
    after.palette = p ∧ after.outlet = q ∧ after.out = session.out ++ text

section Writes

variable {α β : Type} {p : Palette} {q : Outlet} {t : Task α} {f : α → Task β}
  {text text' : String}

/-- One task after another. -/
theorem Writes.bind (h : Writes p q t text) (hf : ∀ a, Writes p q (f a) text') :
    Writes p q (t >>= f) (text ++ text') := by
  intro session b after hp hq hrun
  simp only [Bind.bind, EStateM.bind] at hrun
  cases hfirst : t session with
  | error e between =>
    rw [hfirst] at hrun
    cases hrun
  | ok a between =>
    rw [hfirst] at hrun
    -- The first task has left palette and outlet as the second one expects them.
    obtain ⟨hp', hq', hout⟩ := h session a between hp hq hfirst
    obtain ⟨hp'', hq'', hout'⟩ := hf a between b after hp' hq' hrun
    exact ⟨hp'', hq'', by rw [hout', hout, String.append_assoc]⟩

/-- A task that prints nothing, in front of another. -/
theorem Writes.silent_bind (h : Writes p q t "") (hf : ∀ a, Writes p q (f a) text) :
    Writes p q (t >>= f) text := by
  have hboth := h.bind hf
  rwa [String.empty_append] at hboth

/-- A task that leaves the palette, the outlet and the output alone. -/
theorem writes_nothing (h : ∀ session a after, t session = .ok a after →
    after.palette = session.palette ∧ after.outlet = session.outlet ∧ after.out = session.out) :
    Writes p q t "" := by
  intro session a after hp hq hrun
  obtain ⟨hpalette, houtlet, hout⟩ := h session a after hrun
  exact ⟨hpalette.trans hp, houtlet.trans hq, by rw [hout, String.append_empty]⟩

/-- A task that is done or left out. -/
theorem writes_when {t : Task Unit} {f : Unit → Task β} (c : Bool) (h : Writes p q t text)
    (hf : Writes p q (f ()) text') :
    Writes p q (if c = true then t >>= f else f ()) ((if c then text else "") ++ text') := by
  cases c with
  | true =>
    rw [if_pos rfl, if_pos rfl]
    exact h.bind fun _ => hf
  | false =>
    rw [if_neg Bool.false_ne_true, if_neg Bool.false_ne_true, String.empty_append]
    exact hf

/-- Looking at the palette. -/
theorem writes_palette {f : Palette → Task β} (h : Writes p q (f p) text) :
    Writes p q (get >>= fun session => f session.palette) text := by
  intro session b after hp hq hrun
  refine h session b after hp hq ?_
  rw [← hrun, ← hp]
  rfl

/-- Giving a value at once. -/
theorem writes_pure (a : α) : Writes p q (pure a) "" :=
  writes_nothing fun _ _ _ hrun => by cases hrun; exact ⟨rfl, rfl, rfl⟩

/-- Logging. -/
theorem writes_note (level : Level) (message : String) (pairs : List (String × String)) :
    Writes p q (note level message pairs) "" :=
  writes_nothing fun _ _ _ hrun => by cases hrun; exact ⟨rfl, rfl, rfl⟩

/-- Printing a line to an outlet without a limit. -/
theorem writes_printLine (hroom : q.room = none) (text : String) :
    Writes p q (printLine text) (text ++ "\n") := by
  intro session a after hp hq hrun
  cases hrun
  refine ⟨hp, ?_, if_neg ?_⟩
  · show session.outlet.after 1 = q
    rw [hq, Outlet.after_of_room hroom]
  · rw [hq, Outlet.isFull_of_room hroom]
    exact Bool.false_ne_true

/-- Printing lines to it. -/
theorem writes_printLines (hroom : q.room = none) (lines : List String) :
    Writes p q (printLines lines) (String.join (lines.map (· ++ "\n"))) := by
  induction lines with
  | nil => exact writes_pure ()
  | cons line lines ih =>
    rw [List.map_cons, String.join_cons]
    exact (writes_printLine hroom line).bind fun _ => ih

/-- Printing a stack to it. -/
theorem writes_dump (hroom : q.room = none) (stack : List Int64) :
    Writes p q (dump stack) (paintStack p stack) := by
  have hheading : Writes p q (heading "Residual Stack")
      (p.green "=== Residual Stack ===" ++ "\n") :=
    writes_palette (f := fun p => printLine (p.green "=== Residual Stack ==="))
      (writes_printLine hroom _)
  exact hheading.bind fun _ => writes_palette (f := fun p => printLines (stackLines p stack))
    (writes_printLines hroom _)

end Writes

section Parts

variable {p : Palette} {q : Outlet} {o : Options}

/-- Saving the image. -/
theorem writes_saveImage (o : Options) (image : Image) : Writes p q (saveImage o image) "" := by
  refine writes_nothing fun session a after hrun => ?_
  unfold saveImage at hrun
  split at hrun
  · simp only [bind, EStateM.bind, get, getThe, MonadStateOf.get, EStateM.get] at hrun
    cases hsave : Image.save session.files o.outputFile image with
    | error cause =>
      rw [hsave] at hrun
      cases hrun
    | ok files =>
      rw [hsave] at hrun
      cases hrun
      exact ⟨rfl, rfl, rfl⟩
  · cases hrun
    exact ⟨rfl, rfl, rfl⟩

/-- Printing the listing or not. -/
theorem writes_list (hroom : q.room = none) (hquiet : o.verbose = false) (image : Image) :
    Writes p q (list o image) (if o.disassemble then paintListing p image.listing else "") := by
  unfold list
  cases o.disassemble with
  | true =>
    rw [if_pos rfl, if_pos rfl, hquiet, if_neg Bool.false_ne_true]
    exact writes_palette (f := fun p => printLines (listingLines p image.listing))
      (writes_printLines hroom _)
  | false => exact writes_pure ()

/-- Running the machine, with what follows. The machine has an outlet without a limit then, which it
leaves as it is. -/
theorem writes_runMachine_bind {β : Type} {f : Machine → Task β} {text : String}
    (hroom : q.room = none) (fuel : Nat) (id : String) (s : Settings) (image : Image) :
    let m := (machine s image q).run fuel
    Writes p q (f m) text → Writes p q (runMachine fuel id s image >>= f) (m.out.text ++ text) := by
  intro m hf session b after hp hq hrun
  subst hq
  simp only [Bind.bind, EStateM.bind, runMachine_eq] at hrun
  have hkept : m.out.toOutlet = session.outlet := by
    rw [toOutlet_run, Outlet.after_of_room hroom]
  -- The session after the machine is not written out: it is what `hrun` starts from.
  have hthen := fun hpalette houtlet => hf _ b after hpalette houtlet hrun
  obtain ⟨hp', hq', hout⟩ := hthen hp hkept
  exact ⟨hp', hq', by rw [hout, String.append_assoc]⟩

/-- Executing the image: what the program prints and then what is left of its stack. -/
theorem writes_execute (hroom : q.room = none) (hquiet : o.verbose = false) (fuel : Nat)
    (id : String) (s : Settings) (image : Image) :
    let m := (machine s image q).run fuel
    Writes p q (execute fuel id o s image)
      (m.out.text ++ if s.dumpStack then paintStack p m.stack.toList else "") := by
  intro m
  have hannounce : Writes p q (announce id o s image) "" := by
    refine (writes_note _ _ _).silent_bind fun _ => ?_
    rw [hquiet, if_neg Bool.false_ne_true]
    exact writes_pure ()
  have hend : Writes p q (recordEnd id image m >>= fun _ => pure (Result.ofMachine image m))
      "" := by
    refine Writes.silent_bind ?_ fun _ => writes_pure _
    unfold recordEnd
    split
    · exact writes_note _ _ _
    · exact writes_note _ _ _
    · exact writes_pure ()
  refine hannounce.silent_bind fun _ => writes_runMachine_bind hroom fuel id s image ?_
  rw [← String.append_empty (s := if s.dumpStack = true then _ else "")]
  exact writes_when s.dumpStack (writes_dump hroom _) hend

end Parts

/-! ## Whole runs -/

/-- What a run is to print, with the given listing of its image, values that the program prints and
stack that it leaves: each part if it is asked for, and the last two if the program is executed. -/
def transcript (o : Options) (s : Settings) (listing : String) (values stack : List Int64) :
    String :=
  (if o.disassemble then listing else "") ++
    if o.noRun then "" else
      String.join (values.map Sink.line) ++ if s.dumpStack then stackText stack else ""

/-- The same in the colours of a palette, for an image and the machine that has executed it. -/
def paintTranscript (p : Palette) (o : Options) (s : Settings) (image : Image) (m : Machine) :
    String :=
  (if o.disassemble then paintListing p image.listing else "") ++
    if o.noRun then "" else
      m.out.text ++ if s.dumpStack then paintStack p m.stack.toList else ""

section Runs

variable {p : Palette} {q : Outlet} {o : Options} {settings : Settings} {image : Image}
  {saved : Files} {session : Session} {id : String} {fuel : Nat} {r : Report} {result : Result}

/-- Behind its preparations a run prints its parts. -/
theorem writes_finish (hroom : q.room = none) (hquiet : o.verbose = false) (fuel : Nat)
    (id : String) (settings : Settings) (image : Image) :
    Writes p q (finish fuel id o settings image) (paintTranscript p o settings image
      ((machine settings image q).run fuel)) := by
  unfold finish paintTranscript
  refine (writes_saveImage o image).silent_bind fun _ => ?_
  refine (writes_list hroom hquiet image).bind fun _ => ?_
  cases o.noRun with
  | true => exact writes_pure _
  | false => exact writes_execute hroom hquiet fuel id settings image

/-- Without colours the parts are printed as they are. -/
theorem paintTranscript_disabled (o : Options) (s : Settings) (image : Image) (m : Machine) :
    paintTranscript { enabled := false } o s image m =
      transcript o s image.listing m.out.printed.toList m.stack.toList := by
  rw [paintTranscript, transcript, paintListing_disabled, paintStack_disabled, Sink.text_eq_join]

/-- In colours they read the same, but for the spaces of the listing. -/
theorem reads_paintTranscript (o : Options) (s : Settings) {image : Image} (m : Machine)
    (hbreak : '\n' ∉ image.name.toList) (hescape : Palette.escape ∉ image.name.toList) :
    Palette.Reads (paintTranscript { enabled := true } o s image m)
      (transcript o s (tidy image.listing) m.out.printed.toList m.stack.toList) := by
  have hnone : Palette.Reads "" "" := Palette.reads_self (by simp)
  have hprinted : Palette.Reads m.out.text
      (String.join (m.out.printed.toList.map Sink.line)) := by
    rw [Sink.text_eq_join]
    exact Palette.reads_join fun v _ => (Palette.reads_self (escape_not_mem_ofInt _)).append
      (Palette.reads_self (by decide +kernel))
  unfold paintTranscript transcript
  refine Palette.Reads.append ?_ ?_
  · split
    · exact reads_paintListing hbreak hescape
    · exact hnone
  · split
    · exact hnone
    · refine hprinted.append ?_
      split
      · exact reads_paintStack _ _
      · exact hnone

/-- A run goes on with one kind of settings only. -/
theorem Configures.unique {files : Files} {s s' : Settings} (h : Configures o files s)
    (h' : Configures o files s') : s' = s := by
  obtain ⟨loaded, hload, rfl⟩ := h.loads
  obtain ⟨loaded', hload', rfl⟩ := h'.loads
  rw [hload] at hload'
  cases hload'
  rfl

/-- A run that has its settings and its program has set its palette and printed nothing yet. -/
theorem exists_prepared (session : Session) (h : Prepares o session.files settings image saved) :
    ∃ ready : Session, ready.palette = ⟨o.wantsColor settings session.environment⟩ ∧
      ready.outlet = session.outlet ∧ ready.out = session.out ∧
      ∀ fuel id, run fuel id o session = finish fuel id o settings image ready := by
  obtain ⟨hsettings, ⟨found, hfound, rfl⟩, -, -⟩ := h
  obtain ⟨configured, hconfigure, huntouched⟩ := configure_of_configures hsettings
  rw [← huntouched.files] at hfound
  obtain ⟨ready, hload, huntouched'⟩ := loadImage_of_finds hfound
  -- The settings decide on colours, and looking for the program leaves the palette as they set it.
  have hkept := (steady_loadImage "" o).palette_eq configured
  obtain ⟨⟨loaded, hfile, rfl⟩, -⟩ := hsettings
  have hset := (palette_configure hfile).1
  rw [hconfigure] at hset
  rw [hload] at hkept
  have hboth := huntouched.trans huntouched'
  refine ⟨ready, hkept.trans hset, hboth.outlet, hboth.out, fun fuel id => ?_⟩
  simp only [run_eq_conclude, conclude, bind, EStateM.bind, hconfigure, hload, leaving]

/-- A report with a result is that on a run which gave it. -/
theorem run_of_report (h : report fuel id o session = r) (hresult : r.result? = some result) :
    run fuel id o (session.fresh o.out) = .ok result r.session := by
  subst h
  unfold report at *
  cases hrun : run fuel id o (session.fresh o.out) with
  | error e after =>
    rw [hrun] at hresult
    cases hresult
  | ok found after =>
    rw [hrun] at hresult
    cases hresult
    rfl

/-- What a run prints that returns with a result, by the machine behind the result. That is the one
it started if nothing is to be executed. -/
theorem exists_machine_of_returns (h : Prepares o session.files settings image saved)
    (hreturns : Returns id o session r) (hresult : r.result? = some result)
    (hquiet : o.verbose = false) (hroom : o.out.room = none) :
    ∃ m, result.image = image ∧ result.stack = m.stack.toList ∧
      (o.noRun = false → result = .ofMachine image m ∧
        ∃ events, Answers .run (o.start settings image o.out)
          (.outcome result.status events) m) ∧
      r.session.out =
        paintTranscript ⟨o.wantsColor settings session.environment⟩ o settings image m := by
  obtain ⟨ready, hpalette, houtlet, hout, hprepared⟩ :=
    exists_prepared (session.fresh o.out) h
  obtain ⟨fuel, hsame⟩ := hreturns
  have hrun := run_of_report (hsame 0) hresult
  rw [hprepared] at hrun
  obtain ⟨-, -, hprinted⟩ := writes_finish hroom hquiet _ id settings image ready result r.session
    hpalette houtlet hrun
  rw [hout, Session.fresh, String.empty_append] at hprinted
  -- An outlet without a limit is the same after the listing.
  have hstart : machine settings image o.out = o.start settings image o.out := by
    rw [Options.start, Outlet.after_of_room hroom]
  rw [hstart] at hprinted
  -- The machine is asked for in either case; where nothing is executed it is the one that would
  -- start.
  cases hnoRun : o.noRun with
  | true =>
    obtain ⟨after, -, hreport⟩ := report_of_noRun h hnoRun id
    rw [← hsame 0, hreport] at hresult
    cases hresult
    refine ⟨o.start settings image o.out, rfl, rfl,
      fun hfalse => Bool.noConfusion hfalse, ?_⟩
    rw [hprinted, paintTranscript, paintTranscript, hnoRun]
    rfl
  | false =>
    obtain ⟨k, after', hstop, -, hr⟩ := stopped_of_returns h hnoRun ⟨fuel, hsame⟩
    obtain ⟨after, -, hreport⟩ := report_of_executed h hnoRun id (fuel + 0)
    rw [Machine.run_eq_iterate] at hprinted
    rw [hr] at hresult
    cases hresult
    rw [← hsame 0, hreport] at hr
    -- Both are reports of the same run, so the machine at this fuel has come to the same result as
    -- the one that stopped.
    have hmachine := Except.ok.inj (congrArg Report.outcome hr)
    have hstatus : (Machine.step^[fuel + 0] (o.start settings image o.out)).status =
      (Machine.step^[k] (o.start settings image o.out)).status :=
        congrArg Result.status hmachine
    obtain ⟨events, hanswers⟩ := Machine.answers_of_iterate hstatus hstop
    exact ⟨_, rfl, (congrArg Result.stack hmachine).symm,
      fun _ => ⟨hmachine.symm, events, hanswers⟩, hprinted⟩

end Runs

/-- A run that returns with a result, is not verbose and prints to an outlet that takes every write
prints the listing of the result's image if it is asked for, then the values that the machine of the
image printed, and then, if it is asked for, the stack that is left, from the top to the bottom; and
if nothing is to be executed, at most the listing. Without colours the listing is printed as it is,
whatever the name of the image. In colours that is what the output reads without its escape
sequences, but for the words of each line of the listing, which have single spaces between them; for
this the name must hold neither line breaks nor escape characters. -/
theorem run_prints_transcript {id : String} {o : Options} {session : Session} {settings : Settings}
    {r : Report} {result : Result} (hsettings : Configures o session.files settings)
    (hreturns : Returns id o session r) (hresult : r.result? = some result)
    (hquiet : o.verbose = false) (hroom : o.out.room = none) :
    ∃ m : Machine,
      (o.noRun = false → result = .ofMachine result.image m ∧
        ∃ events, Answers .run (o.start settings result.image o.out)
          (.outcome result.status events) m) ∧
      (o.wantsColor settings session.environment = false →
        r.session.out = transcript o settings result.image.listing m.out.printed.toList
          result.stack) ∧
      (o.wantsColor settings session.environment = true →
        '\n' ∉ result.image.name.toList → Palette.escape ∉ result.image.name.toList →
        Palette.plain r.session.out = transcript o settings (tidy result.image.listing)
          m.out.printed.toList result.stack) := by
  rcases fails_or_prepares o session.files with ⟨e, hfails⟩ | ⟨settings', image, saved, hprepares⟩
  · -- A run that fails has no result.
    obtain ⟨after, hreport, -⟩ := report_of_fails hfails id
    obtain ⟨fuel, hsame⟩ := hreturns
    rw [← hsame 0, hreport] at hresult
    cases hresult
  obtain rfl := hsettings.unique hprepares.configures
  obtain ⟨m, rfl, hstack, hexecuted, hprinted⟩ :=
    exists_machine_of_returns hprepares hreturns hresult hquiet hroom
  refine ⟨m, hexecuted, fun hcolor => ?_, fun hcolor hbreak hescape => ?_⟩
  · rw [hprinted, hcolor, hstack, paintTranscript_disabled]
  · rw [hprinted, hcolor, hstack]
    exact (reads_paintTranscript o settings' m hbreak hescape).plain_eq

/-- Two instructions are not enough for a sum. The run is in colours; without them its output reads
as the listing, nothing that the program printed, and the two words on the stack. -/
theorem run_prints_transcript_limit :
    let o : Options :=
      { settingsFile := "a", program := "add", argument := 3, maxSteps := 2, disassemble := true
        dumpStack := true }
    let session : Session :=
      { files := { entries := [(["a"], .file [])] }, environment := { forceColor := "1" } }
    ∃ r, Returns "" o session r ∧ Palette.plain r.session.out =
      "== add ==\n0000 CONST 3\n0002 CONST 3\n0004 ADD\n0005 PRINT\n0006 HALT\n" ++
      "=== Residual Stack ===\n1: 3\n0: 3\n" := by
  intro o session
  have hprepares : Prepares o session.files (o.apply { path := "a" }) (Program.add 3 3)
      session.files :=
    .of_unsaved ⟨⟨_, load_of_empty, rfl⟩, by decide⟩ (.builtIn (by decide) rfl rfl) rfl
  have hstop : (Machine.step^[3] (o.start (o.apply { path := "a" }) (Program.add 3 3) o.out)).status
      ≠ .running := by decide +kernel
  have hreturns := returns_of_stopped hprepares "" hstop
  obtain ⟨after, -, hreport⟩ := report_of_executed hprepares rfl "" 3
  rw [hreport] at hreturns
  obtain ⟨m, hexecuted, -, hplain⟩ :=
    run_prints_transcript hprepares.configures hreturns rfl rfl rfl
  obtain ⟨-, events, hanswers⟩ := hexecuted rfl
  have hm := ((answers_run_iff hstop).1 hanswers).2
  refine ⟨_, hreturns, ?_⟩
  rw [hplain (by decide +kernel) (by decide +kernel) (by decide +kernel), hm]
  decide +kernel

end Runner

end StackMachine
