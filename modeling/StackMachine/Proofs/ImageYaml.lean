import StackMachine.Image.Codec
import StackMachine.Proofs.Document
import StackMachine.Proofs.Scalars

/-!
# Images survive YAML

The text of an image is a document of lines, one for each field. A number is written as a plain text
that is read as the same number, and a name of letters, digits and underscores is written plainly
or, where it would be read as something other than a text, between double quotes. The lines are
therefore read as a mapping whose values are those of the fields (`ofYaml_toYaml`).
-/

namespace StackMachine

namespace Yaml.Written

open Scan (IsPlain)

/-! ## Names -/

/-- Whether a character is a letter, a digit or an underscore. -/
def isName (c : Char) : Bool :=
  c.isAlphanum || c == '_'

section Name

variable {c : Char}

/-- The characters of simple names may stand in names of documents. -/
theorem isWord_of_isName (h : isName c = true) : isWord c = true := by
  rw [isWord]
  exact Bool.or_eq_true_iff.2 (.inl h)

/-- A character of a simple name is no other character. -/
theorem ne_of_isName {d : Char} (hc : isName c = true) (hd : isName d = false) : c ≠ d := by
  rintro rfl
  rw [hc] at hd
  exact Bool.noConfusion hd

/-- A character of a simple name can be written without an escape. -/
theorem isPrintable_of_isName (h : isName c = true) : isPrintable c = true := by
  have hrange := toNat_of_isWord (isWord_of_isName h)
  simp [isPrintable]
  omega

/-- Between double quotes a character of a simple name stands for itself. -/
theorem doubleChar_of_isName (h : isName c = true) : doubleChar c = [c] := by
  have hquote := ne_of_isName h (by decide : isName '"' = false)
  have hslash := ne_of_isName h (by decide : isName '\\' = false)
  simp [doubleChar, isPrintable_of_isName h, isBreak_of_isWord (isWord_of_isName h), hquote, hslash]

end Name

variable {cs : List Char}

/-- Between double quotes a simple name stands as it is. -/
theorem double_of_isName (h : ∀ c ∈ cs, isName c = true) : double cs = '"' :: (cs ++ ['"']) := by
  have hflat : cs.flatMap doubleChar = cs := by
    induction cs with
    | nil => rfl
    | cons c cs ih =>
      rw [List.flatMap_cons, doubleChar_of_isName (h c List.mem_cons_self),
        ih fun d hd => h d (List.mem_cons_of_mem c hd)]
      rfl
  rw [double, hflat]

/-- Neighbours do not satisfy what no two characters satisfy. -/
theorem anyNeighbours_eq_false {p : Char → Char → Bool} (h : ∀ a ∈ cs, ∀ b ∈ cs, p a b = false) :
    anyNeighbours p cs = false := by
  fun_induction anyNeighbours p cs with
  | case1 a b cs ih =>
    have hrest := ih fun a ha b hb => h a (List.mem_cons_of_mem _ ha) b (List.mem_cons_of_mem _ hb)
    rw [h a (by simp) b (by simp), hrest]
    rfl
  | case2 => rfl

/-- A simple name has no indicators. -/
theorem hasIndicator_of_isName (h : ∀ c ∈ cs, isName c = true) (previous : Char) :
    hasIndicator previous cs = false := by
  induction cs generalizing previous with
  | nil => rfl
  | cons c cs ih =>
    have hc := h c List.mem_cons_self
    have hcolon := ne_of_isName hc (by decide : isName ':' = false)
    have hhash := ne_of_isName hc (by decide : isName '#' = false)
    simp [hasIndicator, hcolon, hhash, ih fun d hd => h d (List.mem_cons_of_mem c hd)]

/-- A simple name starts with no indicator. -/
theorem startsWithIndicator_of_isName (h : ∀ c ∈ cs, isName c = true) :
    startsWithIndicator cs = false := by
  cases cs with
  | nil => rfl
  | cons c cs =>
    have hc := h c List.mem_cons_self
    have hne {d : Char} (hd : isName d = false) : c ≠ d := ne_of_isName hc hd
    -- None of the indicators is a character of a simple name, by going through them once.
    have hfree : "#,[]\x7b\x7d&*!|>'\"%@`".toList.contains c = false := by
      have hothers : ("#,[]\x7b\x7d&*!|>'\"%@`".toList.all fun d => !isName d) = true := by
        decide
      rw [Bool.eq_false_iff, Ne, List.contains_iff_mem]
      intro hmem
      have hother := List.all_eq_true.1 hothers c hmem
      rw [hc] at hother
      cases hother
    -- The marks of a document are three dashes or three dots.
    have hmark {d : Char} (hd : isName d = false) : [d, d, d].isPrefixOf (c :: cs) = false := by
      simp [List.isPrefixOf, Ne.symm (hne hd)]
    have hdashes : "---".toList.isPrefixOf (c :: cs) = false := hmark (by decide)
    have hdots : "...".toList.isPrefixOf (c :: cs) = false := hmark (by decide)
    rw [startsWithIndicator, hfree, hdashes, hdots]
    simp [hne (by decide : isName '?' = false), hne (by decide : isName ':' = false),
      hne (by decide : isName '-' = false)]

/-- A simple name can stand between single quotes. -/
theorem fitsSingle_of_isName (h : ∀ c ∈ cs, isName c = true) : fitsSingle cs = true := by
  have hbreak : ∀ c ∈ cs, isBreak c = false :=
    fun c hc => isBreak_of_isWord (isWord_of_isName (h c hc))
  have hspaceBreak : spaceBreak cs = false :=
    anyNeighbours_eq_false fun a _ b hb => by simp [hbreak b hb]
  have hbreakSpace : breakSpace cs = false :=
    anyNeighbours_eq_false fun a ha b _ => by simp [hbreak a ha]
  have htab : '\t' ∉ cs := fun hmem => absurd (h _ hmem) (by decide)
  have hspecial : cs.any isSpecial = false := by
    rw [List.any_eq_false]
    exact fun c hc => by simp [isSpecial, isPrintable_of_isName (h c hc)]
  simp only [fitsSingle, hspaceBreak, hbreakSpace, hspecial]
  simpa using htab

/-- A simple name can be written plainly. -/
theorem fitsPlain_of_isName (h : ∀ c ∈ cs, isName c = true) : fitsPlain cs = true := by
  have hbreak : cs.any isBreak = false := by
    rw [List.any_eq_false]
    exact fun c hc => by simp [isBreak_of_isWord (isWord_of_isName (h c hc))]
  have hspace : ' ' ∉ cs := fun hmem => absurd (h _ hmem) (by decide)
  have hhead : (cs.head? != some ' ') = true :=
    bne_iff_ne.2 fun heq => hspace (List.mem_of_mem_head? heq)
  have hlast : (cs.getLast? != some ' ') = true :=
    bne_iff_ne.2 fun heq => hspace (List.mem_of_getLast? heq)
  simp only [fitsPlain, fitsSingle_of_isName h, hbreak, hhead, hlast,
    startsWithIndicator_of_isName h, Bool.not_false, Bool.and_self, Bool.true_and]
  cases cs with
  | nil => rfl
  | cons c cs =>
    dsimp only
    rw [hasIndicator_of_isName fun d hd => h d (List.mem_cons_of_mem c hd)]
    rfl

/-- A simple name that is not empty is written as a value of one line, plainly if that is read as a
text. -/
theorem value_of_isName {name : String} (h : ∀ c ∈ name.toList, isName c = true) (hne : name ≠ "") :
    ∃ v : Value, value name = ' ' :: (v.text ++ ['\n']) ∧
      (v.node = .scalar none .quoted name ∨
        v.node = .scalar none .plain name ∧ readsAsText name = true) := by
  have hword : ∀ c ∈ name.toList, isWord c = true := fun c hc => isWord_of_isName (h c hc)
  have hfeed : '\n' ∉ name.toList := fun hmem => absurd (h _ hmem) (by decide)
  have hlast : (name.toList.getLast?.any isBreak) = false := by
    cases heq : name.toList.getLast? with
    | none => rfl
    | some c => exact isBreak_of_isWord (hword c (List.mem_of_getLast? heq))
  -- A name that looks like something else is quoted; any other is written plainly.
  cases htext : readsAsText name with
  | false =>
    have hquote : ('"' :: (name.toList ++ ['"'])).getLast? = some '"' := by
      rw [← List.cons_append]
      exact List.getLast?_concat
    refine ⟨.quoted name.toList hword, ?_, .inl ?_⟩
    · simp [value, hfeed, htext, double_of_isName h, Value.text, hquote, isBreak]
    · rw [Value.node, String.ofList_toList]
  | true =>
    have hplain : IsPlain name.toList := by
      -- A lone dash is not plain, but a dash is no character of a simple name either.
      refine ⟨hword, fun hnil => hne (String.toList_eq_nil_iff.1 hnil), fun hdash => ?_⟩
      exact absurd (h '-' (by rw [hdash]; exact List.mem_cons_self)) (by decide)
    refine ⟨.plain name.toList hplain, ?_, .inr ⟨?_, rfl⟩⟩
    · simp [value, hfeed, htext, fitsPlain_of_isName h, Value.text, hlast]
    · rw [Value.node, String.ofList_toList]

end Yaml.Written

namespace Image

open Yaml (Value Line Node)

/-! ## Lines -/

/-- The numeral of a word is a plain text. -/
theorem isPlain_ofWord (w : Int64) : Yaml.Scan.IsPlain (Decimal.ofWord w).toList := by
  have hdigits : (Decimal.digits w.toInt.natAbs) ≠ [] := Decimal.digits_ne_nil _
  refine ⟨fun c hc => ?_, ?_, ?_⟩
  · have hsymbol : Decimal.isSymbol c = true := Decimal.isSymbol_of_mem_ofInt hc
    rw [Decimal.isSymbol, Bool.or_eq_true] at hsymbol
    rcases hsymbol with hdigit | hdash
    · simp [Yaml.isWord, Char.isAlphanum, hdigit]
    · simp [Yaml.isWord, hdash]
  · rw [Decimal.ofWord, Decimal.toList_ofInt]
    simp [hdigits]
  · -- A lone dash would leave a number without digits, or be one itself.
    rw [Decimal.ofWord, Decimal.toList_ofInt]
    intro hdash
    split at hdash
    · exact hdigits (List.cons.inj hdash).2
    · have hmem : '-' ∈ Decimal.digits w.toInt.natAbs := by
        rw [List.nil_append] at hdash
        rw [hdash]
        exact List.mem_cons_self
      exact absurd (Decimal.isDigit_of_mem_digits hmem) (by decide)

/-- A word as a value. -/
def wordValue (w : Int64) : Value :=
  .plain (Decimal.ofWord w).toList (isPlain_ofWord w)

/-- The text of a word. -/
theorem text_wordValue (w : Int64) : (wordValue w).text = (Decimal.ofWord w).toList :=
  rfl

/-- Words between brackets as a value. -/
def wordsValue (words : List Int64) : Value :=
  .sequence (words.map fun w => (Decimal.ofWord w).toList) fun cs hcs => by
    obtain ⟨w, -, rfl⟩ := List.mem_map.1 hcs
    exact isPlain_ofWord w

/-- Items are separated by a comma and a space. -/
theorem itemsText_eq (items : List (List Char)) :
    Yaml.Scan.itemsText items = [',', ' '].intercalate items := by
  cases items with
  | nil => rfl
  | cons cs items =>
    -- The first item has no separator before it, so the induction is on the items behind it.
    induction items generalizing cs with
    | nil => simp [Yaml.Scan.itemsText, Yaml.Scan.furtherText]
    | cons ds items ih =>
      rw [List.intercalate_cons_cons, ← ih]
      simp [Yaml.Scan.itemsText, Yaml.Scan.furtherText]

/-- The text of words between brackets. -/
theorem text_wordsValue (words : List Int64) :
    (wordsValue words).text = (bracketed words).toList := by
  rw [wordsValue, Value.text, itemsText_eq]
  simp [bracketed, String.toList_intercalate, Function.comp_def]

/-- The line of a field. -/
def fieldLine (field : Field) (v : Value) : Line where
  key := field.label.toList
  value := v
  isPlain := by
    cases field with
    | name | entry | locals | code =>
      exact ⟨List.all_eq_true.1 (by decide), by decide, by decide⟩
  ne_dash := by
    cases field with
    | name | entry | locals | code => decide
  length_le := by
    cases field with
    | name | entry | locals | code => decide

/-- The lines of an image whose name is written as a value, if there is any. -/
def lines (name? : Option Value) (image : Image) : List Line :=
  (name?.map (fieldLine .name)).toList ++
    [fieldLine .entry (wordValue image.entry), fieldLine .locals (wordValue image.locals),
      fieldLine .code (wordsValue image.words.toList)]

namespace FromYaml

/-- The key of a field's line is read as the label. -/
theorem label_fieldLabel (field : Field) :
    label (.scalar none .plain field.label) = .ok (some field.label) := by
  cases field with
  | name | entry | locals | code => rfl

/-- A label stands for its field. -/
theorem field_label (field : Field) : FromYaml.field field.label = .ok field := by
  cases field with
  | name | entry | locals | code => rfl

/-- A numeral is read as its word. -/
theorem integer_wordValue (w : Int64) : integer (wordValue w).node = .ok (some w) := by
  have hlt : w.toInt < 0x8000000000000000 := w.toInt_lt
  simp only [wordValue, Value.node, String.ofList_toList, integer, scalar,
    Yaml.Scalar.ofText_ofWord, bind, Except.bind]
  rw [if_pos hlt, Int64.ofInt_toInt]

/-- Numerals are collected as their words. -/
theorem collect_wordsValue (done : Array Int64) (words : List Int64) :
    collect done (Yaml.plainItems (words.map fun w => (Decimal.ofWord w).toList)) =
      .ok (done ++ words) := by
  -- The words that are collected are the accumulator of the recursion, so they are arbitrary.
  induction words generalizing done with
  | nil => simp [Yaml.plainItems, collect]
  | cons w words ih =>
    have hfirst : integer (.scalar none .plain (String.ofList (Decimal.ofWord w).toList)) =
      .ok (some w) := integer_wordValue w
    have hrest := ih (done.push w)
    simp only [Yaml.plainItems, List.map_cons, collect, hfirst, bind, Except.bind] at hrest ⊢
    rw [hrest]
    simp

/-- Numerals between brackets are read as the words of some code. -/
theorem words_wordsValue (ws : List Int64) :
    words (wordsValue ws).node = .ok (some ws.toArray) := by
  simp only [wordsValue, Value.node, words, collect_wordsValue, bind, Except.bind]
  simp

/-- The line of a field that is not given yet sets the field. -/
theorem setPairs_cons {p : Progress} {field : Field} {v : Value} {next : Image}
    (hmerged : p.merged = none) (hnew : field.label ∉ p.given)
    (hset : set p.image field v.node = .ok next) (lines : List Line) :
    setPairs p ((fieldLine field v :: lines).map Line.pair) =
      setPairs ⟨next, field.label :: p.given, none⟩ (lines.map Line.pair) := by
  have hpair : (fieldLine field v).pair = (.scalar none .plain field.label, v.node) := by
    rw [Line.pair, fieldLine, String.ofList_toList]
  -- No field has the label of a merge, and the field has not been given before.
  have hmerge : isMerge (.scalar none .plain field.label) = false := by
    cases field with
    | name | entry | locals | code => rfl
  have hpass : p.given.contains field.label = false := by
    simpa using hnew
  rw [List.map_cons, hpair, setPairs, hmerge, if_neg Bool.false_ne_true, setPair, label_fieldLabel]
  simp only [bind, Except.bind, hmerged, Option.any_none, if_neg Bool.false_ne_true, hpass, hset,
    field_label, Option.map_none]

/-- A mapping without a merge key whose keys differ is read pair by pair. -/
theorem image_mapping {rounds : Nat} {pairs : List (Node × Node)} {p : Progress}
    (hdistinct : distinct (pairs.map fun pair => identity pair.1) = true)
    (hmerge : pairs.find? (isMerge ·.1) = none) (hpairs : setPairs {} pairs = .ok p) :
    image (rounds + 1) (.mapping pairs) = .ok p.image := by
  rw [image, setMapping]
  simp [hdistinct, hmerge, hpairs, bind, Except.bind]

/-- The lines behind the name set the other fields. -/
theorem setPairs_fields (image : Image) (name : String) {given : List String}
    (hgiven : given = [] ∨ given = ["name"]) :
    setPairs ⟨{ name }, given, none⟩ ((lines none image).map Line.pair) =
      .ok ⟨{ image with name, code := some image.words }, "code" :: "locals" :: "entry" :: given,
        none⟩ := by
  have hentry (start : Image) : set start .entry (wordValue image.entry).node =
      .ok { start with entry := image.entry } := by
    simp [set, integer_wordValue, bind, Except.bind]
  have hlocals (start : Image) : set start .locals (wordValue image.locals).node =
      .ok { start with locals := image.locals } := by
    simp [set, integer_wordValue, bind, Except.bind]
  have hcode (start : Image) :
      set start .code (wordsValue image.words.toList).node =
        .ok { start with code := some image.words } := by
    simp [set, words_wordsValue, bind, Except.bind]
  -- Only the name can have been given before the other fields.
  have hnew : ∀ field : Field, field ≠ .name → field.label ∉ given := by
    rintro field hfield
    rcases hgiven with rfl | rfl
    · simp
    · cases field with
      | name => exact absurd rfl hfield
      | entry | locals | code => decide
  rw [lines, Option.map_none, Option.toList_none, List.nil_append,
    setPairs_cons rfl (hnew .entry (by decide)) (hentry _),
    setPairs_cons rfl (by simpa using ⟨by decide, hnew .locals (by decide)⟩) (hlocals _),
    setPairs_cons rfl (by simpa using ⟨by decide, by decide, hnew .code (by decide)⟩) (hcode _)]
  rfl

/-- The lines of an image are read as the image, with empty code where it has none. -/
theorem image_lines {image : Image} {name? : Option Value}
    (hnone : name? = none → image.name = "")
    (hsome : ∀ v ∈ name?, label v.node = .ok (some image.name)) (rounds : Nat) :
    FromYaml.image (rounds + 1) (.mapping ((lines name? image).map Line.pair)) =
      .ok { image with code := some image.words } := by
  cases name? with
  | none =>
    rw [image_mapping rfl rfl (setPairs_fields image "" (.inl rfl)), hnone rfl]
  | some v =>
    have hname : set {} .name v.node = .ok { name := image.name } := by
      simp [set, hsome v rfl, bind, Except.bind]
    have hfirst : setPairs {} ((lines (some v) image).map Line.pair) =
        setPairs ⟨{ name := image.name }, ["name"], none⟩ ((lines none image).map Line.pair) :=
      setPairs_cons rfl (List.not_mem_nil) hname (lines none image)
    rw [image_mapping rfl rfl (hfirst.trans (setPairs_fields image image.name (.inr rfl)))]

end FromYaml

/-- The text of an image whose name is simple is that of its lines. -/
theorem exists_lines {image : Image} (h : ∀ c ∈ image.name.toList, Yaml.Written.isName c = true) :
    ∃ name? : Option Value, image.toYaml.toList = (lines name? image).flatMap Line.text ∧
      (name? = none → image.name = "") ∧
      ∀ v ∈ name?, FromYaml.label v.node = .ok (some image.name) := by
  have hfields : (lines none image).flatMap Line.text =
      ("entry: " ++ Decimal.ofWord image.entry ++ "\nlocals: " ++ Decimal.ofWord image.locals ++
        "\ncode: " ++ bracketed image.words.toList ++ "\n").toList := by
    simp [lines, Line.text, fieldLine, Field.label, text_wordValue, text_wordsValue]
  by_cases hempty : image.name = ""
  · -- An empty name has no line of its own.
    refine ⟨none, ?_, fun _ => hempty, fun v hv => absurd hv (Option.not_mem_none v)⟩
    rw [hfields]
    simp [toYaml, hempty]
  · obtain ⟨v, hvalue, hnode⟩ := Yaml.Written.value_of_isName h hempty
    refine ⟨some v, ?_, fun hnone => absurd hnone (Option.some_ne_none v), ?_⟩
    · have hlines : lines (some v) image = fieldLine .name v :: lines none image := rfl
      rw [hlines, List.flatMap_cons, hfields]
      simp [toYaml, hempty, hvalue, Line.text, fieldLine, Field.label]
    · rintro _ ⟨⟩
      rcases hnode with hquoted | ⟨hplain, htext⟩
      · rw [hquoted]
        rfl
      · -- A plain name was written only because it is read as a text.
        rw [hplain, FromYaml.label, FromYaml.scalar, Yaml.Scalar.ofText_of_readsAsText htext]
        rfl

/-- An image whose name is simple is read back from its text, with empty code where it has none. -/
theorem ofYaml_toYaml {image : Image} (h : ∀ c ∈ image.name.toList, Yaml.Written.isName c = true) :
    ofYaml (Bytes.ofText image.toYaml) = .ok { image with code := some image.words } := by
  obtain ⟨name?, htext, hnone, hsome⟩ := exists_lines h
  -- The lemmas about documents want a first line, and an image has three lines at least.
  obtain ⟨line, rest, hlines⟩ : ∃ line rest, lines name? image = line :: rest := by
    cases name? <;> exact ⟨_, _, rfl⟩
  have hbytes : Bytes.ofText image.toYaml =
      Bytes.ofText (String.ofList ((lines name? image).flatMap Line.text)) := by
    rw [← htext, String.ofList_toList]
  have hsource : Yaml.source (Bytes.ofText image.toYaml) =
      .ok ((lines name? image).flatMap Line.text) := by
    rw [hbytes, hlines]
    exact Yaml.source_lines line rest
  have hnode : Node.ofText ((lines name? image).flatMap Line.text) =
      .ok (.mapping ((lines name? image).map Line.pair)) := by
    rw [hlines]
    exact Node.ofText_lines line rest
  rw [ofYaml, hsource]
  simp only [bind, Except.bind, hnode]
  exact FromYaml.image_lines hnone hsome _

/-- An image with a name of letters, digits and underscores, which may be empty or look like
something other than a text, is written as YAML to any place that takes a write, whatever its entry,
locals and code are. What is written is read back as an image with the same name, entry, locals and
words; missing code comes back as empty code. -/
theorem yaml_round_trip {image : Image}
    (hname : ∀ c ∈ image.name.toList, Yaml.Written.isName c = true) :
    ∃ bs, (∀ room complaint, room ≠ some 0 → encode (some .yaml) image room complaint = .ok bs) ∧
      read .yaml bs = .ok { image with code := some image.words } := by
  refine ⟨Bytes.ofText image.toYaml, fun room complaint hroom => if_neg hroom, ?_⟩
  rw [read, ofYaml_toYaml hname]
  rfl

/-- An image with a name that would be read as null and words at both ends of their range, one whose
name would be read as a number, and one without a name and without code. -/
theorem yaml_round_trip_lookalikes :
    let nullish : Image :=
      { name := "null", entry := Int64.minValue, locals := Int64.maxValue
        code := some #[0, -1, Int64.minValue, Int64.maxValue] }
    let numeric : Image := { name := "0x1F", code := some #[7] }
    (∀ c ∈ nullish.name.toList, Yaml.Written.isName c = true) ∧
      (∃ bs, encode (some .yaml) nullish = .ok bs ∧ read .yaml bs = .ok nullish) ∧
      (∃ bs, encode (some .yaml) numeric = .ok bs ∧ read .yaml bs = .ok numeric) ∧
      ∃ bs, encode (some .yaml) {} = .ok bs ∧ read .yaml bs = .ok { code := some #[] } := by
  intro nullish numeric
  have hnullish : ∀ c ∈ nullish.name.toList, Yaml.Written.isName c = true :=
    List.all_eq_true.1 (by decide)
  have hnumeric : ∀ c ∈ numeric.name.toList, Yaml.Written.isName c = true :=
    List.all_eq_true.1 (by decide)
  have hempty : ∀ c ∈ ({} : Image).name.toList, Yaml.Written.isName c = true := nofun
  obtain ⟨bs, hwritten, hread⟩ := yaml_round_trip hnullish
  obtain ⟨bs', hwritten', hread'⟩ := yaml_round_trip hnumeric
  obtain ⟨bs'', hwritten'', hread''⟩ := yaml_round_trip hempty
  exact ⟨hnullish, ⟨bs, hwritten none "" nofun, hread⟩, ⟨bs', hwritten' none "" nofun, hread'⟩,
    ⟨bs'', hwritten'' none "" nofun, hread''⟩⟩

end Image

end StackMachine
