import StackMachine.Proofs.Files
import StackMachine.Proofs.ImageCbor

/-!
# CBOR items mark their own end

A reader is delimited if it takes the same bytes for the same thing whatever stands behind them. It
then never finds one thing in some bytes and another in a longer input that starts with them: where
the longer input is one whole item, no part in front is. `delimited_item` says that items are read
so, at every depth and also where an item leaves its length open, from one lemma for each part of
the reader.

A file that holds an image is one item. What is cut off somewhere, or has something behind it, is
therefore rejected.
-/

namespace StackMachine.Cbor

variable {α β : Type}

/-- What the reader finds in some bytes it finds in front of more bytes too, and leaves those. -/
def Delimited (read : Bytes → Except Error (α × Bytes)) : Prop :=
  ∀ ⦃bs x rest⦄, read bs = .ok (x, rest) → ∀ more, read (bs ++ more) = .ok (x, rest ++ more)

/-! ## Combinations -/

namespace Delimited

variable {read : Bytes → Except Error (α × Bytes)}

/-- Reading nothing. -/
theorem pure (x : α) : Delimited fun bs => .ok (x, bs) := by
  intro bs y rest h more
  cases h
  rfl

/-- Failing. -/
theorem error (e : Error) : Delimited fun _ => (.error e : Except Error (α × Bytes)) :=
  fun _ _ _ h => nomatch h

/-- Reading one thing and then another that depends on it. -/
theorem bind (next : α → Bytes → Except Error (β × Bytes)) (hread : Delimited read)
    (hnext : ∀ x, Delimited (next x)) :
    Delimited fun bs => read bs >>= fun found => next found.1 found.2 := by
  intro bs y rest h more
  cases hfirst : read bs with
  | error e =>
    simp only [hfirst, Bind.bind, Except.bind] at h
    cases h
  | ok found =>
    simp only [hfirst, Bind.bind, Except.bind] at h
    -- The first reader leaves the rest with the further bytes behind it, where the second one
    -- starts.
    simp only [hread hfirst more, Bind.bind, Except.bind]
    exact hnext found.1 h more

/-- Making something of what is read. -/
theorem map (hread : Delimited read) (f : α → β) :
    Delimited fun bs => read bs >>= fun found => .ok (f found.1, found.2) :=
  bind (fun x bs => .ok (f x, bs)) hread fun x => pure (f x)

/-- Reading a given number of things. -/
theorem many (hread : Delimited read) (count : Nat) (done : List α) :
    Delimited (readMany read count done) := by
  -- What has been read is kept in reverse, and grows with each element.
  induction count generalizing done with
  | zero => exact pure done.reverse
  | succ count ih =>
    intro bs xs rest h more
    rw [readMany] at h ⊢
    cases hfirst : read bs with
    | error e =>
      rw [hfirst] at h
      cases h
    | ok found =>
      rw [hfirst] at h
      rw [hread hfirst more]
      exact ih (found.1 :: done) h more

/-- Reading things until a break, in no fewer rounds than before. -/
theorem until_break (hread : Delimited read) {rounds rounds' : Nat} (hrounds : rounds ≤ rounds')
    (done : List α) {bs rest : Bytes} {xs : List α}
    (h : readOpen read rounds done bs = .ok (xs, rest)) (more : Bytes) :
    readOpen read rounds' done (bs ++ more) = .ok (xs, rest ++ more) := by
  induction rounds generalizing rounds' done bs with
  | zero => cases h
  | succ rounds ih =>
    obtain ⟨rounds', rfl⟩ : ∃ n, rounds' = n + 1 := ⟨rounds' - 1, by omega⟩
    cases bs with
    | nil => cases h
    | cons b bs =>
      rw [List.cons_append, readOpen]
      rw [readOpen] at h
      -- A break ends the list before the bytes behind it are looked at.
      by_cases hstop : b = stop
      · simp only [if_pos hstop] at h ⊢
        cases h
        rfl
      · simp only [if_neg hstop] at h ⊢
        cases hfirst : read (b :: bs) with
        | error e =>
          rw [hfirst] at h
          cases h
        | ok found =>
          have hfirst' := hread hfirst more
          rw [hfirst] at h
          rw [List.cons_append] at hfirst'
          rw [hfirst']
          exact ih (by omega) (found.1 :: done) h

/-- Reading things until a break, in as many rounds as there are bytes. -/
theorem opened (hread : Delimited read) :
    Delimited fun bs => readOpen read bs.length [] bs := by
  intro bs xs rest h more
  exact until_break hread (by simp) [] h more

/-- Reading the elements that a head announces. -/
theorem elements (hread : Delimited read) (head : Head) : Delimited (readElements read head) := by
  unfold readElements
  split
  · refine bind (fun xs bs => if xs.length > maxSize then .error .size else .ok (xs, bs))
      (opened hread) fun xs => ?_
    split
    · exact error .size
    · exact pure xs
  · split
    · exact error .size
    · exact many hread head.argument []

/-- Reading a key and its value, if a value is never found where nothing is left. -/
theorem pair (hread : Delimited read) (hempty : ∀ found, read [] ≠ .ok found) :
    Delimited (readPair read) := by
  refine bind (fun key bs =>
    if bs.head? = some stop then .error .oddMap
    else read bs >>= fun value => .ok ((key, value.1), value.2)) hread fun key => ?_
  intro bs found rest h more
  cases bs with
  | nil =>
    -- The key was the last thing there is, so that no value was found.
    cases hvalue : read [] with
    | error e =>
      simp [hvalue, Bind.bind, Except.bind] at h
    | ok value => exact absurd hvalue (hempty value)
  | cons b bs =>
    beta_reduce at h ⊢
    by_cases hstop : (b :: bs).head? = some stop
    · rw [if_pos hstop] at h
      cases h
    · have hstop' : ¬ (b :: bs ++ more).head? = some stop := hstop
      rw [if_neg hstop] at h
      rw [if_neg hstop']
      exact map hread (fun value => (key, value)) h more

end Delimited

/-! ## Items -/

/-- The first bytes are the same in front of more. -/
theorem split?_append_more {n : Nat} {bs front rest : Bytes}
    (h : Bytes.split? n bs = some (front, rest)) (more : Bytes) :
    Bytes.split? n (bs ++ more) = some (front, rest ++ more) := by
  rw [Bytes.split?_eq] at h ⊢
  by_cases hn : n ≤ bs.length
  · rw [if_pos hn] at h
    cases h
    rw [if_pos (by rw [List.length_append]; omega), List.take_append_of_le_length hn,
      List.drop_append_of_le_length hn]
  · rw [if_neg hn] at h
    cases h

/-- The first byte says how long a head is. -/
theorem delimited_head : Delimited Head.read := by
  intro bs head rest h more
  cases bs with
  | nil => cases h
  | cons b bs =>
    rw [List.cons_append]
    unfold Head.read at h ⊢
    dsimp only at h ⊢
    split at h
    · next hshort =>
      rw [if_pos hshort]
      cases h
      rfl
    · next hshort =>
      rw [if_neg hshort]
      split at h
      · next hlong =>
        rw [if_pos hlong]
        cases hsplit : Bytes.split? (1 <<< (b.toNat % 32 - 24)) bs with
        | none =>
          rw [hsplit] at h
          cases h
        | some parts =>
          rw [hsplit] at h
          rw [split?_append_more hsplit more]
          cases h
          rfl
      · next hlong =>
        rw [if_neg hlong]
        split at h
        · next hopen =>
          rw [if_pos hopen]
          split at h
          · next hkind =>
            rw [if_pos hkind]
            cases h
            rfl
          · cases h
        · cases h

/-- The bytes that a head announces. -/
theorem delimited_chunk (head : Head) : Delimited (readChunk head) := by
  intro bs chunk rest h more
  unfold readChunk at h ⊢
  cases hsplit : Bytes.split? head.argument bs with
  | none =>
    rw [hsplit] at h
    cases h
  | some parts =>
    rw [hsplit] at h
    rw [split?_append_more hsplit more]
    cases h
    rfl

/-- The chunks of a string. -/
theorem delimited_string (head : Head) : Delimited (readString head) := by
  unfold readString
  split
  · refine Delimited.opened (Delimited.bind (fun inner bs =>
      if inner.kind ≠ head.kind ∨ inner.isOpen then .error .chunk else readChunk inner bs)
      delimited_head fun inner => ?_)
    split
    · exact Delimited.error .chunk
    · exact delimited_chunk inner
  · exact Delimited.map (delimited_chunk head) fun chunk => [chunk]

/-- A simple value or a float is its head. -/
theorem delimited_simple (head : Head) : Delimited (Item.readSimple head) := by
  unfold Item.readSimple
  split
  · exact Delimited.pure _
  · split
    · split
      · exact Delimited.error .simple
      · exact Delimited.pure _
    · exact Delimited.pure _

/-- No item is found where nothing is left. -/
theorem read_nil_ne_ok (levels : Nat) (tagged : Bool) (found : Item × Bytes) :
    Item.read levels tagged [] ≠ .ok found := by
  rw [Item.read]
  intro h
  cases h

/-- An item is delimited if those inside it are, and so is the content of its tag. -/
theorem delimited_item_of {levels : Nat} {tagged : Bool}
    (hinside : ∀ inner < levels, ∀ tagged, Delimited (Item.read inner tagged))
    (hcontent : tagged = false → Delimited (Item.read levels true)) :
    Delimited (Item.read levels tagged) := by
  intro bs item rest h more
  rw [Item.read] at h ⊢
  cases hhead : Head.read bs with
  | error e =>
    rw [hhead] at h
    cases h
  | ok found =>
    rw [hhead] at h
    rw [delimited_head hhead more]
    obtain ⟨head, after⟩ := found
    simp only [Bind.bind, Except.bind] at h ⊢
    generalize head.kind = kind at h ⊢
    -- The kinds in the order of their codes: two of integers, two of strings, arrays, maps, tags,
    -- and the simple values.
    rcases kind with _ | _ | _ | _ | _ | _ | _ | kind
    · exact Delimited.pure (Item.unsigned head.argument) h more
    · exact Delimited.pure (Item.negative head.argument) h more
    · exact Delimited.map (delimited_string head) Item.bytes h more
    · exact Delimited.map (delimited_string head) Item.text h more
    · cases levels with
      | zero => cases h
      | succ levels =>
        exact Delimited.map ((hinside levels (by omega) false).elements head) Item.array h more
    · cases levels with
      | zero => cases h
      | succ levels =>
        have hpair := (hinside levels (by omega) false).pair (read_nil_ne_ok levels false)
        exact Delimited.map (hpair.elements head) Item.map h more
    · cases tagged with
      | false => exact Delimited.map (hcontent rfl) (Item.tag head.argument) h more
      | true =>
        cases levels with
        | zero => cases h
        | succ levels =>
          exact Delimited.map (hinside levels (by omega) true) (Item.tag head.argument) h more
    · exact delimited_simple head h more

/-- Items are delimited. -/
theorem delimited_item (levels : Nat) (tagged : Bool) : Delimited (Item.read levels tagged) := by
  induction levels using Nat.strong_induction_on generalizing tagged with
  | _ levels ih =>
    -- Behind a tag the next tag counts as a level, so that case comes first.
    have htagged : Delimited (Item.read levels true) :=
      delimited_item_of ih fun h => nomatch h
    cases tagged with
    | true => exact htagged
    | false => exact delimited_item_of ih fun _ => htagged

/-- Bytes that are one item stop being one when something stands behind them. -/
theorem ofBytes_append {bs more : Bytes} {item : Item} (h : Item.ofBytes bs = .ok item)
    (hmore : more ≠ []) : Item.ofBytes (bs ++ more) = .error .trailing := by
  unfold Item.ofBytes at h ⊢
  cases hread : Item.read maxDepth false bs with
  | error e =>
    rw [hread] at h
    cases h
  | ok found =>
    obtain ⟨item', rest⟩ := found
    rw [hread] at h
    rw [delimited_item maxDepth false hread more]
    simp [Bind.bind, Except.bind, hmore]

/-- No part in front of bytes that are one item is one itself. -/
theorem ofBytes_of_isPrefix {front bs : Bytes} {item : Item} (h : Item.ofBytes bs = .ok item)
    (hfront : front <+: bs) (hne : front ≠ bs) : ∃ e, Item.ofBytes front = .error e := by
  obtain ⟨more, rfl⟩ := hfront
  have hmore : more ≠ [] := fun hnil => hne (by rw [hnil, List.append_nil])
  -- Were the part an item, the whole would be that item with something behind it.
  cases hread : Item.ofBytes front with
  | error e => exact ⟨e, rfl⟩
  | ok other =>
    rw [ofBytes_append hread hmore] at h
    cases h

end StackMachine.Cbor

namespace StackMachine.Image

variable {image : Image}

/-- What is left of some bytes after a cut, or what they have become with something behind them. -/
def Damaged (bs contents : Bytes) : Prop :=
  (contents <+: bs ∧ contents ≠ bs) ∨ ∃ more, more ≠ [] ∧ contents = bs ++ more

/-- No image is read from the damaged bytes of one. -/
theorem read_of_damaged {bs contents : Bytes} {item : Cbor.Item}
    (hitem : Cbor.Item.ofBytes bs = .ok item) (hdamaged : Damaged bs contents) :
    ∃ e, read .cbor contents = .error e := by
  have hbytes : ∃ e, Cbor.Item.ofBytes contents = .error e := by
    obtain ⟨hfront, hne⟩ | ⟨more, hmore, rfl⟩ := hdamaged
    · exact Cbor.ofBytes_of_isPrefix hitem hfront hne
    · exact ⟨.trailing, Cbor.ofBytes_append hitem hmore⟩
  obtain ⟨e, he⟩ := hbytes
  refine ⟨.cbor e, ?_⟩
  rw [read, ofCbor, he]
  rfl

/-- The bytes of an image of which some are missing at the end, or that have something behind them,
are no image, and a file that holds them cannot be loaded. -/
theorem damaged_cbor_rejected (h : image.FitsCbor) :
    ∃ bs, encode (some .cbor) image = .ok bs ∧
      ∀ contents, Damaged bs contents →
        (∃ e, read .cbor contents = .error e) ∧ (∃ e, decode (some .cbor) contents = .error e) ∧
        ∀ files path, Format.ofPath? path = some .cbor → files.read path = .ok contents →
          ∃ e, load files path = .error e := by
  refine ⟨image.toCbor, rfl, fun contents hdamaged => ?_⟩
  obtain ⟨e, hread⟩ := read_of_damaged (spells_toCbor h 30).ofBytes hdamaged
  have hdecode : decode (some .cbor) contents = .error e := by
    rw [decode, hread]
    rfl
  refine ⟨⟨e, hread⟩, ⟨e, hdecode⟩, fun files path hpath hfile => ⟨.undecodable path e, ?_⟩⟩
  rw [load_of_read hpath hfile, hdecode]
  rfl

/-- A file cut within a word of eight bytes, and one with a second copy of the image. -/
theorem damaged_cbor_rejected_cut :
    let image : Image := { name := "add", entry := 1, code := some #[11, Int64.minValue, 18] }
    let bs := image.toCbor
    image.FitsCbor ∧ Damaged bs (bs.take 16) ∧ Damaged bs (bs ++ bs) ∧
      (∃ e, read .cbor (bs.take 16) = .error e) ∧ (∃ e, read .cbor (bs ++ bs) = .error e) := by
  intro image bs
  have hfits : image.FitsCbor := ⟨by decide, by decide⟩
  have hcut : Damaged bs (bs.take 16) := .inl ⟨List.take_prefix 16 bs, by decide⟩
  have htwice : Damaged bs (bs ++ bs) := .inr ⟨bs, by decide, rfl⟩
  obtain ⟨bs', hwritten, hrejected⟩ := damaged_cbor_rejected hfits
  obtain rfl : bs = bs' := Except.ok.inj hwritten
  exact ⟨hfits, hcut, htwice, (hrejected _ hcut).1, (hrejected _ htwice).1⟩

end StackMachine.Image
