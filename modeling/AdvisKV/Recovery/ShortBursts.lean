import AdvisKV.Lib.Crc
import AdvisKV.Recovery.TornTail

/-!
# AdvisKV — a record that was changed

A framed record carries the checksum of its payload. `update_crc32` takes a byte at a time through a table of 256
words; the table holds eight moves of the register, so that a step is `Crc.feed` and a change of at most four
consecutive bytes shows. A WAL is read up to the record in which it happened.

Main results:

* `computeCrc32_burst` — the checksums of two payloads that differ in a short burst.
* `decodeCrc_burst` — a record with such a payload is refused.
* `short_burst_detected` — every record, and every WAL with one such record.
-/

namespace AdvisKV.Wire

/-! ## The table -/

/-- `K_CRC32_POLYNOMIAL`. -/
def crc32Polynomial : BitVec 32 := 0xEDB88320#32

/-- One bit of the loop that fills the table is a move of the register. -/
theorem toBitVec_crc32Bit (c : UInt32) : (crc32Bit c).toBitVec = Crc.move crc32Polynomial c.toBitVec := by
  have hlow : (c &&& 1 ≠ 0) ↔ c.toBitVec.getLsbD 0 = true := by
    rw [ne_eq, ← UInt32.toBitVec_inj, UInt32.toBitVec_and]
    show ¬c.toBitVec &&& 1#32 = 0#32 ↔ _
    rw [BitVec.and_one_eq_setWidth_ofBool_getLsbD]
    rcases c.toBitVec.getLsbD 0 with _ | _
    · decide
    · decide
  unfold crc32Bit Crc.move
  by_cases h : c.toBitVec.getLsbD 0 = true
  · rw [if_pos (hlow.mpr h), if_pos h]
    rfl
  · rw [if_neg (fun hc => h (hlow.mp hc)), if_neg h]
    rfl

/-- An entry of the table is eight moves of its index. -/
theorem toBitVec_crc32Table (i : UInt32) :
    (crc32Table i).toBitVec = (Crc.move crc32Polynomial)^[8] i.toBitVec := by
  unfold crc32Table
  generalize 8 = n
  induction n generalizing i with
  | zero => rfl
  | succ n ih =>
    rw [Function.iterate_succ_apply, Function.iterate_succ_apply, ← toBitVec_crc32Bit]
    exact ih (crc32Bit i)

/-- **A step through the table** feeds the byte. -/
theorem toBitVec_crc32Step (state : UInt32) (b : UInt8) :
    (crc32Step state b).toBitVec = Crc.feed crc32Polynomial state.toBitVec b := by
  -- the byte is gone from the register once it is shifted out
  have hbyte : (b.toBitVec.setWidth 32) >>> 8 = 0#32 := by
    apply BitVec.eq_of_getLsbD_eq
    intro i _
    simp
  unfold crc32Step Crc.feed
  rw [Crc.iterate_move_table, BitVec.ushiftRight_xor_distrib, hbyte, BitVec.xor_zero, UInt32.toBitVec_xor,
    toBitVec_crc32Table]
  rfl

theorem toBitVec_foldl_crc32Step (state : UInt32) (data : Bytes) :
    (data.foldl crc32Step state).toBitVec = Crc.remainder crc32Polynomial state.toBitVec data := by
  induction data generalizing state with
  | nil => rfl
  | cons b data ih =>
    rw [List.foldl_cons, ih, toBitVec_crc32Step]
    rfl

/-! ## Bursts -/

/-- **A short burst**: the bytes are changed, and only within four consecutive ones. -/
structure ShortBurst (payload changed : Bytes) : Prop where
  ne : changed ≠ payload
  length : changed.length = payload.length
  confined : ∃ i, ∀ j, j < i ∨ i + 4 ≤ j → changed[j]? = payload[j]?

variable {payload : Bytes}

/-- What is in front of the burst and behind it stays. -/
theorem ShortBurst.split {changed : Bytes} (h : ShortBurst payload changed) :
    ∃ front xs ys back, payload = front ++ (xs ++ back) ∧ changed = front ++ (ys ++ back) ∧
      xs.length = ys.length ∧ xs.length ≤ 4 ∧ xs ≠ ys := by
  obtain ⟨i, hconfined⟩ := h.confined
  have hfront : changed.take i = payload.take i := by
    apply List.ext_getElem?
    intro j
    by_cases hj : j < i
    · rw [List.getElem?_take_of_lt hj, List.getElem?_take_of_lt hj]
      exact hconfined j (Or.inl hj)
    · rw [List.getElem?_take_eq_none (by omega), List.getElem?_take_eq_none (by omega)]
  have hback : changed.drop (i + 4) = payload.drop (i + 4) := by
    apply List.ext_getElem?
    intro j
    rw [List.getElem?_drop, List.getElem?_drop]
    exact hconfined (i + 4 + j) (Or.inr (by omega))
  -- both are cut at the same two places
  have hparts : ∀ bs : Bytes, bs = bs.take i ++ ((bs.drop i).take 4 ++ bs.drop (i + 4)) := by
    intro bs
    rw [← List.drop_drop, List.take_append_drop, List.take_append_drop]
  refine ⟨payload.take i, (payload.drop i).take 4, (changed.drop i).take 4, payload.drop (i + 4), hparts payload,
    ?_, ?_, List.length_take_le _ _, ?_⟩
  · rw [← hfront, ← hback]
    exact hparts changed
  · rw [List.length_take, List.length_take, List.length_drop, List.length_drop, h.length]
  · intro hsame
    refine h.ne ?_
    rw [hparts changed, hparts payload, hfront, hback, hsame]

/-- **Checksums tell a short burst.** -/
theorem computeCrc32_burst {changed : Bytes} (h : ShortBurst payload changed) :
    computeCrc32 changed ≠ computeCrc32 payload := by
  obtain ⟨front, xs, ys, back, rfl, rfl, hlen, hshort, hne⟩ := h.split
  intro hsame
  have hfold := congrArg UInt32.toBitVec (UInt32.not_inj.mp hsame)
  rw [toBitVec_foldl_crc32Step, toBitVec_foldl_crc32Step] at hfold
  exact Crc.remainder_burst crc32Polynomial (by decide) hlen (by omega) hne _ front back hfold.symm

/-! ## Records -/

/-- The record of `v` with another payload. -/
def changedFrame {α : Type} [BinaryCodec α] (v : α) (payload : Bytes) : Bytes :=
  encode (Int32.ofNat (encode v).length) ++ (encode (computeCrc32 (encode v)) ++ payload)

theorem changedFrame_encode {α : Type} [BinaryCodec α] (v : α) : changedFrame v (encode v) = frame v :=
  frame_eq.symm

/-- **A changed record** is refused, whatever follows it. -/
theorem decodeCrc_burst {α : Type} [BinaryCodec α] {v : α} (hv : framable v = true)
    (h : ShortBurst (encode v) payload) (k : BinaryReader) (rest : Bytes) :
    (decodeCrc k : Decoder Status α) (changedFrame v payload ++ rest) = .error ⟨.error, "crc mismatch"⟩ := by
  have hraw : (requireComplete (k.readRaw (Int32.ofNat (encode v).length).toInt.toNat)).Decodes payload payload := by
    rw [length_cast hv, ← h.length]
    exact requireComplete_decodes (k.readRaw_decodes payload)
  unfold changedFrame
  rw [List.append_assoc, List.append_assoc]
  refine (Decoder.bind_ok (exact_int32 _ k _) _).trans ?_
  refine (Decoder.bind_ok (ensure_decodes (length_accepted hv) _ _) _).trans ?_
  refine (Decoder.bind_ok (requireComplete_decodes (exact_uint32 _ k) _) _).trans ?_
  refine (Decoder.bind_ok (hraw rest) _).trans ?_
  refine Decoder.bind_error ?_ _
  unfold ensure
  rw [if_neg (by simpa using computeCrc32_burst h)]
  rfl

namespace WalStore

variable {front : List LogEntry}

/-- The loop stops at the changed record. -/
theorem readLoop_burst {e : LogEntry} {payload rest : Bytes} (k : BinaryReader)
    (hframes : ∀ x ∈ front, framable x = true) (hfits : ∀ x ∈ front, x.Fits) (he : framable e = true)
    (h : ShortBurst (encode e) payload) {prevIndex : Option Int64} (hcont : Continues prevIndex front)
    {fuel : Nat} (hfuel : front.length < fuel) :
    readLoop k fuel prevIndex (front.flatMap frame ++ (changedFrame e payload ++ rest)) =
      { entries := front, error := true, errorMsg := "crc mismatch" } := by
  obtain ⟨fuel, rfl⟩ : ∃ f, fuel = f + 1 := ⟨fuel - 1, by omega⟩
  induction front generalizing prevIndex fuel with
  -- the next record is the changed one
  | nil =>
    rw [List.flatMap_nil, List.nil_append, readLoop, decodeCrc_burst he h]
    rfl
  | cons x front ih =>
    obtain ⟨fuel, rfl⟩ : ∃ f, fuel = f + 1 := ⟨fuel - 1, by simp only [List.length_cons] at hfuel; omega⟩
    have hrest := ih (fun y hy => hframes y (List.mem_cons_of_mem _ hy))
      (fun y hy => hfits y (List.mem_cons_of_mem _ hy)) hcont.tail fuel
      (by simp only [List.length_cons] at hfuel; omega)
    have hdecode := decodeCrc_frame (hframes x List.mem_cons_self) (exact_logEntry (hfits x List.mem_cons_self)) k
      (front.flatMap frame ++ (changedFrame e payload ++ rest))
    rw [List.flatMap_cons, List.append_assoc, readLoop, hdecode]
    simp only [hcont.not_discontinuous, hrest]

/-- Every record takes bytes. -/
theorem length_le_flatMap_frame (es : List LogEntry) : es.length ≤ (es.flatMap frame).length := by
  induction es with
  | nil => exact Nat.le_refl _
  | cons e es ih =>
    rw [List.flatMap_cons, List.length_append, List.length_cons, length_frame]
    omega

/-- A WAL with one changed record. -/
theorem readWalFromDisk_burst {back : List LogEntry} {e : LogEntry} {file payload : Bytes}
    (hw : Written (front ++ e :: back) file) (hcons : Consecutive (front ++ e :: back))
    (hfits : ∀ x ∈ front, x.Fits) (h : ShortBurst (encode e) payload) (path : String) :
    readWalFromDisk path (some (front.flatMap frame ++ (changedFrame e payload ++ back.flatMap frame))) =
      { entries := front, error := true, errorMsg := "crc mismatch" } := by
  have hframes := hw.file_eq.1
  have hfront : Consecutive front := List.IsChain.left_of_append hcons
  refine readLoop_burst (.file path) (fun x hx => hframes x (List.mem_append_left _ hx)) hfits
    (hframes e (List.mem_append_right _ List.mem_cons_self)) h hfront.continues ?_
  have hlong := length_le_flatMap_frame front
  rw [List.length_append]
  omega

end WalStore

/-! ## Every record, every WAL -/

/-- **Short bursts are detected.** A record that `encode_crc` has written is refused once at most four consecutive
bytes of its payload are changed; of a WAL of consecutive entries with one such record, the entries in front of it
are read, and an error. -/
theorem short_burst_detected :
    (∀ (α : Type) [BinaryCodec α] (v : α) (w : FileWriter), (encodeCrc v w).1 = .OK →
      (encodeCrc v w).2.contents = w.contents ++ changedFrame v (encode v) ∧
      ∀ payload, ShortBurst (encode v) payload → ∀ k rest,
        ∃ st, (decodeCrc k : Decoder Status α) (changedFrame v payload ++ rest) = .error st ∧ st.fail = true) ∧
    ∀ front e back file, WalStore.Written (front ++ e :: back) file →
      WalStore.Consecutive (front ++ e :: back) → (∀ x ∈ front, x.Fits) →
      file = front.flatMap frame ++ (changedFrame e (encode e) ++ back.flatMap frame) ∧
      ∀ payload, ShortBurst (encode e) payload → ∀ path,
        let changed := front.flatMap frame ++ (changedFrame e payload ++ back.flatMap frame)
        (WalStore.readWalFromDisk path (some changed)).entries = front ∧
          (WalStore.readWalFromDisk path (some changed)).error = true := by
  refine ⟨?_, ?_⟩
  · intro α _ v w hok
    obtain ⟨hframe, hcontents⟩ := WalStore.encodeCrc_ok (show (encodeCrc v w).1.fail = false by rw [hok]; rfl)
    refine ⟨by rw [hcontents, changedFrame_encode], ?_⟩
    intro payload hburst k rest
    exact ⟨_, decodeCrc_burst hframe hburst k rest, rfl⟩
  · intro front e back file hw hcons hfits
    refine ⟨by rw [changedFrame_encode, hw.file_eq.2, List.flatMap_append, List.flatMap_cons], ?_⟩
    intro payload hburst path
    have hread := WalStore.readWalFromDisk_burst hw hcons hfits hburst path
    exact ⟨by rw [hread], by rw [hread]⟩

theorem shortBurst_head {a b : UInt8} (h : b ≠ a) (bs : Bytes) : ShortBurst (a :: bs) (b :: bs) where
  ne := by simpa using h
  length := rfl
  confined := by
    refine ⟨0, fun j hj => ?_⟩
    obtain ⟨j, rfl⟩ : ∃ i, j = i + 1 := ⟨j - 1, by omega⟩
    rfl

/-- The payload of an entry of term 1, with another first byte. -/
def changedPut (index : Int64) : Bytes := 2 :: (encode (WalStore.putEntry index)).tail

theorem changedPut_burst (index : Int64) : ShortBurst (encode (WalStore.putEntry index)) (changedPut index) :=
  shortBurst_head (show (2 : UInt8) ≠ 1 by decide) _

/-- Two batches of one entry each; the first byte of the second payload is changed. -/
theorem second_record_changed :
    let changed := frame (WalStore.putEntry 7) ++ changedFrame (WalStore.putEntry 8) (changedPut 8)
    (∃ st, (decodeCrc .buffer : Decoder Status LogEntry)
      (changedFrame (WalStore.putEntry 8) (changedPut 8) ++ []) = .error st ∧ st.fail = true) ∧
      (WalStore.readWalFromDisk "wal" (some changed)).entries = [WalStore.putEntry 7] ∧
      (WalStore.readWalFromDisk "wal" (some changed)).error = true := by
  have hok : (encodeCrc (WalStore.putEntry 8) {}).1 = .OK := by decide
  have hfits : ∀ x ∈ [WalStore.putEntry 7], x.Fits := by
    intro x hx
    rw [List.mem_singleton.mp hx]
    exact WalStore.putEntry_fits 7
  have hwal := (short_burst_detected.2 [WalStore.putEntry 7] (WalStore.putEntry 8) [] _ WalStore.twoBatches_written
    (.cons_cons (by decide) (.singleton _)) hfits).2 (changedPut 8) (changedPut_burst 8) "wal"
  refine ⟨(short_burst_detected.1 _ _ {} hok).2 (changedPut 8) (changedPut_burst 8) .buffer [], ?_⟩
  simpa using hwal

/-- The key of the first entry is too long and was lost when it was written, so that the entry in front of the
changed record is not what is read. -/
theorem long_key_lost_before_burst :
    ∃ front e back file payload, WalStore.Written (front ++ e :: back) file ∧
      WalStore.Consecutive (front ++ e :: back) ∧ ShortBurst (encode e) payload ∧
      (WalStore.readWalFromDisk "wal"
        (some (front.flatMap frame ++ (changedFrame e payload ++ back.flatMap frame)))).entries ≠ front := by
  obtain ⟨key, hkey⟩ : ∃ s : Bytes, s.length = 2 ^ 32 := ⟨List.replicate (2 ^ 32) 0, List.length_replicate⟩
  let long : LogEntry := { index := 7, key }
  let short : LogEntry := { index := 7 }
  have hsame : encode long = encode short := by
    show _ ++ (_ ++ (_ ++ (encode key ++ _))) = _ ++ (_ ++ (_ ++ (encode ([] : Bytes) ++ _)))
    rw [WalStore.encode_wraps hkey]
  have hframe : frame long = frame short := by
    rw [frame_eq, frame_eq, hsame]
  have hwrites : WalStore.appendBatch [] [long, WalStore.putEntry 8] =
      WalStore.appendBatch [] [short, WalStore.putEntry 8] := by
    unfold WalStore.appendBatch WalStore.encodeEntries
    rw [WalStore.encodeCrc_congr hsame]
  have hok : (WalStore.appendBatch [] [short, WalStore.putEntry 8]).1 = .OK := by decide
  have hchain : ∀ x : LogEntry, x.index = 7 → WalStore.Consecutive [x, WalStore.putEntry 8] := by
    intro x hx
    refine .cons_cons ?_ (.singleton _)
    rw [hx]
    decide
  have hshort : WalStore.Written ([short] ++ WalStore.putEntry 8 :: []) _ := .appendBatch .opened hok
  have hlong : WalStore.Written ([long] ++ WalStore.putEntry 8 :: []) _ :=
    .appendBatch .opened (by rw [← hwrites] at hok; exact hok)
  refine ⟨[long], WalStore.putEntry 8, [], _, changedPut 8, hlong, hchain long rfl, changedPut_burst 8, ?_⟩
  have hread := WalStore.readWalFromDisk_burst hshort (hchain short rfl) (by
    intro x hx
    rw [List.mem_singleton.mp hx]
    constructor <;> simp [short, PeerMember.Fits]) (changedPut_burst 8) "wal"
  have hfront : [long].flatMap frame = [short].flatMap frame := by
    rw [List.flatMap_singleton, List.flatMap_singleton, hframe]
  rw [hfront, hread]
  intro hentries
  have hempty : [] = key := congrArg LogEntry.key (List.cons.inj hentries).1
  rw [← hempty] at hkey
  exact absurd hkey (by decide)

end AdvisKV.Wire
