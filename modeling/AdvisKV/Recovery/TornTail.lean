import AdvisKV.Model.WalFile

/-!
# AdvisKV — a WAL that was cut off

`read_wal_from_disk` on a prefix of a WAL, cut at any byte.

Main results:

* `Written.file_eq` — the file of every sequence of writes is the sequence of its frames.
* `readLoop_take` — one pass over a cut-off file.
* `torn_tail_recovered` — the entries whose records are complete come back, and the cut shows as an error
  exactly when it is inside a record.
-/

namespace AdvisKV.Wire.WalStore

/-! ## Writing -/

theorem encodeCrc_ok {α : Type} [BinaryCodec α] {e : α} {w : FileWriter} (h : (encodeCrc e w).1.fail = false) :
    framable e = true ∧ (encodeCrc e w).2.contents = w.contents ++ frame e := by
  unfold encodeCrc at h ⊢
  by_cases hframe : framable e = true
  · rw [if_pos hframe]
    exact ⟨hframe, w.contents_foldl_writeRaw (framePieces e)⟩
  · rw [if_neg hframe] at h
    exact absurd h (by simp [Status.fail])

variable {es : List LogEntry} {prevIndex : Option Int64}

/-- A batch that is written without an error is the frames of its entries, one behind the other. -/
theorem encodeEntries_ok {w : FileWriter} (h : (encodeEntries w es).1.fail = false) :
    (∀ e ∈ es, framable e = true) ∧ (encodeEntries w es).2.contents = w.contents ++ es.flatMap frame := by
  induction es generalizing w with
  | nil => simp [encodeEntries]
  | cons e es ih =>
    unfold encodeEntries at h ⊢
    by_cases hfail : (encodeCrc e w).1.fail = true
    · simp only [hfail, if_true] at h
      exact absurd h (by simp)
    · simp only [hfail, Bool.false_eq_true, if_false] at h ⊢
      obtain ⟨hframe, hcontents⟩ := encodeCrc_ok (Bool.not_eq_true _ ▸ hfail)
      obtain ⟨hframes, hrest⟩ := ih h
      refine ⟨List.forall_mem_cons.mpr ⟨hframe, hframes⟩, ?_⟩
      rw [hrest, hcontents, List.append_assoc, List.flatMap_cons]

/-- The entries a WAL holds and the bytes of its file, after any number of successful calls. -/
inductive Written : List LogEntry → Bytes → Prop
  | opened : Written [] []
  | appendBatch {es : List LogEntry} {file : Bytes} (h : Written es file) {batch : List LogEntry}
      (hok : (appendBatch file batch).1 = .OK) : Written (es ++ batch) (appendBatch file batch).2
  | rewrite {es : List LogEntry} {file : Bytes} (h : Written es file) {entries : List LogEntry}
      (hok : (rewrite file entries).1 = .OK) : Written entries (rewrite file entries).2

/-- The file of a WAL is the frames of the entries it holds. -/
theorem Written.file_eq {file : Bytes} (h : Written es file) :
    (∀ e ∈ es, framable e = true) ∧ file = es.flatMap frame := by
  induction h with
  | opened => exact ⟨fun e he => absurd he List.not_mem_nil, rfl⟩
  | @appendBatch es file _ batch hok ih =>
    obtain ⟨hframes, rfl⟩ := ih
    unfold WalStore.appendBatch at hok ⊢
    by_cases hfail : (encodeEntries { file := es.flatMap frame } batch).1.fail = true
    · simp only [hfail, if_true] at hok
      exact absurd hfail (by rw [hok]; decide)
    · simp only [hfail, Bool.false_eq_true, if_false]
      obtain ⟨hbatch, hcontents⟩ := encodeEntries_ok (Bool.not_eq_true _ ▸ hfail)
      refine ⟨fun e he => (List.mem_append.mp he).elim (hframes e) (hbatch e), ?_⟩
      rw [FileWriter.file_flush, hcontents, List.flatMap_append]
      exact congrArg (· ++ _) (List.append_nil _)
  -- a rewrite starts from an empty file, whatever the old one held
  | @rewrite es file _ entries hok ih =>
    unfold WalStore.rewrite at hok ⊢
    by_cases hfail : (encodeEntries {} entries).1.fail = true
    · simp only [hfail, if_true] at hok
      exact absurd hfail (by rw [hok]; decide)
    · simp only [hfail, Bool.false_eq_true, if_false]
      obtain ⟨hframes, hcontents⟩ := encodeEntries_ok (Bool.not_eq_true _ ▸ hfail)
      exact ⟨hframes, by rw [FileWriter.file_flush, hcontents]; rfl⟩

/-! ## Reading -/

/-- Where the first `i` records end. -/
def boundary (es : List LogEntry) (i : Nat) : Nat := ((es.take i).flatMap frame).length

@[simp] theorem boundary_zero (es : List LogEntry) : boundary es 0 = 0 := rfl

@[simp] theorem boundary_cons (e : LogEntry) (es : List LogEntry) (i : Nat) :
    boundary (e :: es) (i + 1) = (frame e).length + boundary es i := by
  simp [boundary]

theorem boundary_mono (es : List LogEntry) {i j : Nat} (h : i ≤ j) : boundary es i ≤ boundary es j := by
  induction es generalizing i j with
  | nil => simp [boundary]
  | cons e es ih =>
    rcases i with _ | i
    · exact Nat.zero_le _
    · obtain ⟨j, rfl⟩ : ∃ j', j = j' + 1 := ⟨j - 1, by omega⟩
      rw [boundary_cons, boundary_cons]
      exact Nat.add_le_add_left (ih (by omega)) _

/-- The entry the loop reads next continues the one before it. -/
def Continues (prevIndex : Option Int64) (es : List LogEntry) : Prop :=
  (∀ p ∈ prevIndex, ∀ e ∈ es.head?, e.index = p + 1) ∧ es.IsChain fun a b => b.index = a.index + 1

theorem Continues.tail {prevIndex : Option Int64} {e : LogEntry} {es : List LogEntry}
    (h : Continues prevIndex (e :: es)) : Continues (some e.index) es := by
  refine ⟨?_, h.2.tail⟩
  rintro p hp x hx
  obtain rfl := Option.mem_some_iff.mp hp
  rcases es with _ | ⟨y, ys⟩
  · exact absurd hx (by simp)
  · obtain rfl := Option.mem_some_iff.mp hx
    exact (List.isChain_cons_cons.mp h.2).1

theorem Continues.not_discontinuous {e : LogEntry} (h : Continues prevIndex (e :: es)) :
    (prevIndex.filter fun p => e.index ≠ p + 1) = none := by
  rw [Option.filter_eq_none_iff]
  intro p hp
  simpa using h.1 p hp e rfl

/-- A reader at the end of the file says so by its code. -/
theorem decodeCrc_nil (k : BinaryReader) :
    ∃ st, (decodeCrc k : Decoder Status LogEntry) [] = .error st ∧ st.code = .getEof := by
  obtain ⟨st, hread, hcode⟩ := k.readRaw_short (show ([] : Bytes).length < 4 by decide)
  exact ⟨st, Decoder.bind_error (Decoder.bind_error hread _) _, hcode⟩

/-- **One pass over a cut-off file.** -/
theorem readLoop_take (hframes : ∀ e ∈ es, framable e = true) (hfits : ∀ e ∈ es, e.Fits) (k : BinaryReader)
    (hcont : Continues prevIndex es) {n fuel : Nat} (hn : n ≤ (es.flatMap frame).length) (hfuel : n < fuel) :
    ∃ m ≤ es.length, boundary es m ≤ n ∧ (∀ i < es.length, i < m ↔ boundary es (i + 1) ≤ n) ∧
      readLoop k fuel prevIndex ((es.flatMap frame).take n) =
        if boundary es m = n then { entries := es.take m }
        else { entries := es.take m, error := true, errorMsg := "partial wal record" } := by
  -- every record has at least one byte, so the fuel lasts for a byte count
  obtain ⟨fuel, rfl⟩ : ∃ f, fuel = f + 1 := ⟨fuel - 1, by omega⟩
  induction es generalizing prevIndex n fuel with
  | nil =>
    obtain rfl : n = 0 := by simpa using hn
    obtain ⟨st, hread, hcode⟩ := decodeCrc_nil k
    refine ⟨0, Nat.le_refl _, Nat.le_refl _, by simp, ?_⟩
    simp [readLoop, hread, hcode]
  | cons e es ih =>
    have hlen := length_frame (v := e)
    rw [List.flatMap_cons] at hn ⊢
    by_cases hwhole : (frame e).length ≤ n
    · -- the first record is complete
      obtain ⟨fuel, rfl⟩ : ∃ f, fuel = f + 1 := ⟨fuel - 1, by omega⟩
      rw [List.length_append] at hn
      obtain ⟨m, hm, hbelow, hcount, hread⟩ := ih (fun x hx => hframes x (List.mem_cons_of_mem _ hx))
        (fun x hx => hfits x (List.mem_cons_of_mem _ hx)) hcont.tail
        (show n - (frame e).length ≤ _ by omega) fuel (by omega)
      refine ⟨m + 1, Nat.succ_le_succ hm, by rw [boundary_cons]; omega, ?_, ?_⟩
      · intro i hi
        rcases i with _ | i
        · simpa using hwhole
        · have hstep := hcount i (Nat.lt_of_succ_lt_succ hi)
          rw [boundary_cons]
          omega
      · have hdecode := decodeCrc_frame (hframes e List.mem_cons_self) (exact_logEntry (hfits e List.mem_cons_self)) k
          ((es.flatMap frame).take (n - (frame e).length))
        rw [List.take_append, List.take_of_length_le hwhole, readLoop, hdecode]
        simp only [hcont.not_discontinuous, hread, boundary_cons,
          show (frame e).length + boundary es m = n ↔ boundary es m = n - (frame e).length by omega]
        split <;> rfl
    · -- the cut is in front of the end of the first record
      have hnone : ∀ i < (e :: es).length, i < 0 ↔ boundary (e :: es) (i + 1) ≤ n := by
        intro i _
        rw [boundary_cons]
        omega
      refine ⟨0, Nat.zero_le _, Nat.zero_le _, hnone, ?_⟩
      rw [List.take_append_of_le_length (by omega), boundary_zero]
      rcases Nat.eq_zero_or_pos n with rfl | hpos
      · obtain ⟨st, hread, hcode⟩ := decodeCrc_nil k
        simp [readLoop, hread, hcode]
      · obtain ⟨st, hread, hcode⟩ := decodeCrc_torn (hframes e List.mem_cons_self) hpos (by omega) k
        simp [readLoop, hread, hcode, Nat.ne_of_lt hpos]

/-! ## Consecutive entries -/

/-- The reader compares in `int64`, and between two indexes that differ by one nothing overflows. -/
theorem succ_of_toInt {a b : Int64} (h : b.toInt = a.toInt + 1) : b = a + 1 := by
  have hb := b.toInt_lt
  have ha := a.le_toInt
  rw [← Int64.toInt_inj, Int64.toInt_add, h, Int.bmod_eq_of_le] <;>
    simp only [show Int64.toInt 1 = 1 from rfl] <;> omega

def Consecutive (es : List LogEntry) : Prop := es.IsChain fun a b => b.index.toInt = a.index.toInt + 1

theorem Consecutive.continues (h : Consecutive es) : Continues none es :=
  ⟨by simp, h.imp fun _ _ => succ_of_toInt⟩

/-- What `read_wal_from_disk` makes of the first `n` bytes. -/
theorem readWalFromDisk_take {file : Bytes} (hw : Written es file) (hcons : Consecutive es)
    (hfits : ∀ e ∈ es, e.Fits) (path : String) {n : Nat} (hn : n ≤ file.length) :
    ∃ m ≤ es.length, boundary es m ≤ n ∧ (∀ i < es.length, i < m ↔ boundary es (i + 1) ≤ n) ∧
      readWalFromDisk path (some (file.take n)) =
        if boundary es m = n then { entries := es.take m }
        else { entries := es.take m, error := true, errorMsg := "partial wal record" } := by
  obtain ⟨hframes, rfl⟩ := hw.file_eq
  exact readLoop_take hframes hfits (.file path) hcons.continues hn
    (by rw [List.length_take, Nat.min_eq_left hn]; exact Nat.lt_succ_self n)

/-! ## The record-level WAL -/

/-- **The loop over records**, of which at most the last one is torn. -/
theorem readLoop_records {es : List AdvisKV.LogEntry} {prevIndex : Option Nat}
    (hfirst : ∀ p ∈ prevIndex, ∀ e ∈ es.head?, e.index = p + 1)
    (hchain : es.IsChain fun a b => b.index = a.index + 1) (tail : List WalRecord)
    (htail : tail = [] ∨ tail = [.torn]) :
    AdvisKV.WalStore.readLoop prevIndex (AdvisKV.WalStore.encode es ++ tail) =
      if tail = [] then { entries := es }
      else { entries := es, error := true, errorMsg := "partial wal record" } := by
  induction es generalizing prevIndex with
  | nil => rcases htail with rfl | rfl <;> rfl
  | cons e es ih =>
    have hnext : ∀ p ∈ some e.index, ∀ x ∈ es.head?, x.index = p + 1 := by
      rintro p hp x hx
      obtain rfl := Option.mem_some_iff.mp hp
      rcases es with _ | ⟨y, ys⟩
      · exact absurd hx (by simp)
      · obtain rfl := Option.mem_some_iff.mp hx
        exact (List.isChain_cons_cons.mp hchain).1
    have hrest := ih hnext hchain.tail
    show AdvisKV.WalStore.readLoop prevIndex (.entry e :: (AdvisKV.WalStore.encode es ++ tail)) = _
    rcases prevIndex with _ | p
    · simp only [AdvisKV.WalStore.readLoop, hrest]
      split <;> rfl
    · simp only [AdvisKV.WalStore.readLoop, hrest]
      rw [if_neg (not_not_intro (hfirst p rfl e rfl))]
      split <;> rfl

/-- **The record-level WAL of the model** shows what is read from the bytes: the `m` records that lie whole before
the cut, and a torn one behind them unless the cut is at the end of a record. -/
theorem readWalFromDisk_records {es : List LogEntry} {file : Bytes} (hw : Written es file)
    (hcons : Consecutive es) (hfits : ∀ e ∈ es, e.Fits) (hindex : ∀ e ∈ es, 0 ≤ e.index.toInt) (path : String)
    {n : Nat} (hn : n ≤ file.length) :
    ∃ m ≤ es.length, (∀ i < es.length, i < m ↔ boundary es (i + 1) ≤ n) ∧
      ∃ tail, (tail = if boundary es m = n then [] else [.torn]) ∧
        (readWalFromDisk path (some (file.take n))).toModel = AdvisKV.WalStore.readWalFromDisk
          (AdvisKV.WalStore.encode ((es.take m).map LogEntry.toModel) ++ tail) := by
  obtain ⟨m, hm, -, hcount, hread⟩ := readWalFromDisk_take hw hcons hfits path hn
  refine ⟨m, hm, hcount, _, rfl, ?_⟩
  have hchain : ((es.take m).map LogEntry.toModel).IsChain fun a b => b.index = a.index + 1 := by
    rw [List.isChain_iff_getElem]
    intro i hi
    rw [List.length_map] at hi
    have hstep := List.isChain_iff_getElem.mp (hcons.take m) i hi
    have hpos := hindex _ (List.mem_of_mem_take (List.getElem_mem (Nat.lt_of_succ_lt hi)))
    rw [List.getElem_map, List.getElem_map]
    show Int.toNat _ = Int.toNat _ + 1
    omega
  rw [AdvisKV.WalStore.readWalFromDisk, readLoop_records (by simp) hchain _ (by split <;> simp), hread]
  split <;> simp [WalReadResult.toModel]

/-! ## Every cut -/

/-- **Torn tail.** Of a WAL cut off at any byte exactly the entries come back whose records are complete, in
order, and an error is reported unless the cut is at the end of a record. -/
theorem torn_tail_recovered {es : List LogEntry} {file : Bytes} (hw : Written es file) (hcons : Consecutive es)
    (hfits : ∀ e ∈ es, e.Fits) (path : String) {n : Nat} (hn : n ≤ file.length) :
    ∃ m ≤ es.length, (∀ i < es.length, i < m ↔ boundary es (i + 1) ≤ n) ∧
      (readWalFromDisk path (some (file.take n))).entries = es.take m ∧
      ((readWalFromDisk path (some (file.take n))).error = false ↔ ∃ i ≤ es.length, n = boundary es i) := by
  obtain ⟨m, hm, hbelow, hcount, hread⟩ := readWalFromDisk_take hw hcons hfits path hn
  refine ⟨m, hm, hcount, ?_, ?_⟩
  · rw [hread]
    split <;> rfl
  · rw [hread]
    constructor
    · intro herror
      refine ⟨m, hm, ?_⟩
      by_contra hne
      rw [if_neg (Ne.symm hne)] at herror
      exact Bool.noConfusion herror
    · rintro ⟨i, hi, rfl⟩
      -- the first `i` records are complete, so that nothing of the prefix is left over
      have him : i ≤ m := by
        rcases i with _ | i
        · exact Nat.zero_le m
        · exact (hcount i hi).mpr (Nat.le_refl _)
      rw [if_pos (Nat.le_antisymm hbelow (boundary_mono es him))]

def putEntry (index : Int64) : LogEntry := { term := 1, index, opType := .put, key := [107], value := [1, 2] }

/-- Two batches of one entry each, cut off inside the second record. -/
def twoBatches : Bytes := (appendBatch (appendBatch [] [putEntry 7]).2 [putEntry 8]).2

theorem putEntry_fits (index : Int64) : (putEntry index).Fits := by
  constructor <;> simp [putEntry, PeerMember.Fits]

theorem twoBatches_written : Written [putEntry 7, putEntry 8] twoBatches :=
  have hfirst : (appendBatch [] [putEntry 7]).1 = .OK := by decide
  have hsecond : (appendBatch (appendBatch [] [putEntry 7]).2 [putEntry 8]).1 = .OK := by decide
  .appendBatch (.appendBatch .opened hfirst) hsecond

theorem second_record_torn :
    ∃ m ≤ 2, (∀ i < 2, i < m ↔ boundary [putEntry 7, putEntry 8] (i + 1) ≤ 100) ∧
      (readWalFromDisk "wal" (some (twoBatches.take 100))).entries = [putEntry 7, putEntry 8].take m ∧
      ((readWalFromDisk "wal" (some (twoBatches.take 100))).error = false ↔
        ∃ i ≤ 2, 100 = boundary [putEntry 7, putEntry 8] i) :=
  torn_tail_recovered twoBatches_written (.cons_cons (by decide) (.singleton _))
    (by rintro e he; rcases List.mem_pair.mp he with rfl | rfl <;> exact putEntry_fits _) "wal" (by decide)

/-- The same cut, at the level of records. -/
theorem second_record_torn_in_model : ∃ m ≤ 2,
    (∀ i < 2, i < m ↔ boundary [putEntry 7, putEntry 8] (i + 1) ≤ 100) ∧
    ∃ tail, (tail = if boundary [putEntry 7, putEntry 8] m = 100 then [] else [.torn]) ∧
      (readWalFromDisk "wal" (some (twoBatches.take 100))).toModel = AdvisKV.WalStore.readWalFromDisk
        (AdvisKV.WalStore.encode (([putEntry 7, putEntry 8].take m).map LogEntry.toModel) ++ tail) :=
  readWalFromDisk_records twoBatches_written (.cons_cons (by decide) (.singleton _))
    (by rintro e he; rcases List.mem_pair.mp he with rfl | rfl <;> exact putEntry_fits _)
    (by rintro e he; rcases List.mem_pair.mp he with rfl | rfl <;> decide) "wal" (by decide)

/-- A string of `2 ^ 32` bytes is encoded as the empty one. -/
theorem encode_wraps {s : Bytes} (h : s.length = 2 ^ 32) : encode s = encode ([] : Bytes) := by
  show encode (Int32.ofNat s.length) ++ s.take (Int32.ofNat s.length).toInt.toNat = _
  rw [h, show Int32.ofNat (2 ^ 32) = 0 from rfl, show (Int32.toInt 0).toNat = 0 from rfl, List.take_zero]
  rfl

/-- A record depends on the bytes of the value only. -/
theorem encodeCrc_congr {a b : LogEntry} (h : encode a = encode b) (w : FileWriter) :
    encodeCrc a w = encodeCrc b w := by
  unfold encodeCrc framable framePieces
  rw [h]

/-- **A string that is too long is lost without an error.** Its length is cut to 32 bits before the size of the
payload is checked. -/
theorem oversized_key_lost :
    ∃ es file, Written es file ∧ Consecutive es ∧ (∀ e ∈ es, (encode e).length ≤ kMaxFramedPayloadBytes) ∧
      (readWalFromDisk "wal" (some (file.take file.length))).entries ≠ es := by
  obtain ⟨key, hkey⟩ : ∃ s : Bytes, s.length = 2 ^ 32 := ⟨List.replicate (2 ^ 32) 0, List.length_replicate⟩
  have hsame : encode ({ index := 1, key } : LogEntry) = encode ({ index := 1 } : LogEntry) := by
    show _ ++ (_ ++ (_ ++ (encode key ++ _))) = _ ++ (_ ++ (_ ++ (encode ([] : Bytes) ++ _)))
    rw [encode_wraps hkey]
  have hentries : encodeEntries {} [{ index := 1, key }] = encodeEntries {} [{ index := 1 }] := by
    unfold encodeEntries
    rw [encodeCrc_congr hsame]
  have hwrites : appendBatch [] [{ index := 1, key }] = appendBatch [] [{ index := 1 }] := by
    unfold appendBatch
    rw [hentries]
  have hok : (appendBatch [] [{ index := 1 }]).1 = .OK := by decide
  have hshort : Written [{ index := 1 }] (appendBatch [] [{ index := 1 }]).2 := .appendBatch .opened hok
  have hlong : Written [{ index := 1, key }] (appendBatch [] [{ index := 1, key }]).2 :=
    .appendBatch .opened (by rw [hwrites]; exact hok)
  refine ⟨[{ index := 1, key }], (appendBatch [] [{ index := 1, key }]).2, hlong, List.isChain_singleton _, ?_, ?_⟩
  · rintro e he
    rw [List.mem_singleton.mp he, hsame]
    decide
  · intro hes
    obtain ⟨m, -, -, -, hread⟩ := readWalFromDisk_take hshort (List.isChain_singleton _)
      (by rintro e he; rw [List.mem_singleton.mp he]; constructor <;> simp [PeerMember.Fits]) "wal" (Nat.le_refl _)
    rw [hwrites, hread] at hes
    have hmem : ({ index := 1, key } : LogEntry) ∈ List.take m [({ index := 1 } : LogEntry)] := by
      have hlast := List.mem_singleton_self ({ index := 1, key } : LogEntry)
      rw [← hes] at hlast
      split at hlast <;> exact hlast
    have hempty : key = [] := congrArg LogEntry.key (List.mem_singleton.mp (List.mem_of_mem_take hmem))
    rw [hempty] at hkey
    exact absurd hkey (by decide)

end AdvisKV.Wire.WalStore
