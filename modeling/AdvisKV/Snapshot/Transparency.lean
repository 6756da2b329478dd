import AdvisKV.Lib.Keyed
import AdvisKV.Model.SnapshotFile
import AdvisKV.Replica.Requests

/-!
# AdvisKV — a snapshot stands for the log before it

A state machine that is restored from a snapshot file goes on as the one the snapshot was taken of.

Main results:

* `writeSnapshotToFile_eq` — the bytes of a file that was written without an error.
* `verifySnapshotFile_written`, `openReader_written` — such a file is accepted, and read back.
* `KvStateMachine.Same.applyAll` — equal maps and records stay equal under the same entries.
* `snapshot_transparent` — capture, file, restore and the rest of the log.
-/

namespace AdvisKV.Wire

/-! ## The file -/

namespace SnapshotStore

def encodeKv (kv : Bytes × Bytes) : Bytes := encode kv.1 ++ encode kv.2

/-- Everything in front of the trailer. -/
def snapshotBody (snapshot : SnapshotData) (members : List RaftMember) : Bytes :=
  encode kSnapshotMagic ++ (encode { snapshot.header with members } ++ (snapshot.kvs.flatMap encodeKv ++
    snapshot.requestRecords.flatMap encode))

def snapshotTrailer (snapshot : SnapshotData) (body : Bytes) : SnapshotTrailer :=
  { kvCount := Int32.ofNat snapshot.kvs.length
    requestCount := Int32.ofNat snapshot.requestRecords.length
    bodyCrc32 := computeCrc32 body
    totalLen := Int64.ofNat (body.length + kSnapshotTrailerBytes) }

def encodeTrailer (snapshot : SnapshotData) (body : Bytes) : Bytes :=
  (trailerPieces snapshot.kvs.length snapshot.requestRecords.length (computeCrc32 body) body.length).flatten

/-- A whole file. -/
def snapshotFile (snapshot : SnapshotData) (members : List RaftMember) : Bytes :=
  snapshotBody snapshot members ++ encodeTrailer snapshot (snapshotBody snapshot members)

variable {w : ChecksumWriter}

/-- The writer keeps the checksum and the count of what went through it. -/
theorem writeKvs_wrote {body : Bytes} (h : w.Wrote body) (kvs : List (Bytes × Bytes)) :
    (writeKvs w kvs).Wrote (body ++ kvs.flatMap encodeKv) := by
  induction kvs generalizing w body with
  | nil => simpa [writeKvs] using h
  | cons kv kvs ih =>
    have hrest := ih ((h.writeRaw (encode kv.1)).writeRaw (encode kv.2))
    simpa [writeKvs, encodeKv] using hrest

/-- A record without an id would stop the file. -/
theorem writeRequests_wrote {body : Bytes} (h : w.Wrote body) {records : List RequestRecord}
    (hids : ∀ r ∈ records, r.requestId ≠ []) :
    (writeRequests w records).1 = .OK ∧
      (writeRequests w records).2.Wrote (body ++ records.flatMap encode) := by
  induction records generalizing w body with
  | nil => exact ⟨rfl, by simpa [writeRequests] using h⟩
  | cons record records ih =>
    obtain ⟨hok, hrest⟩ := ih (h.writeRaw (encode record)) fun r hr => hids r (List.mem_cons_of_mem _ hr)
    unfold writeRequests
    rw [if_neg (hids record List.mem_cons_self)]
    exact ⟨hok, by simpa using hrest⟩

/-- **The file** of a snapshot without empty request ids. -/
theorem writeSnapshotToFile_eq {snapshot : SnapshotData} (hids : ∀ r ∈ snapshot.requestRecords, r.requestId ≠ [])
    (members : List RaftMember) :
    writeSnapshotToFile snapshot members = (.OK, snapshotFile snapshot members) := by
  have hhead := (ChecksumWriter.wrote_nothing.writeRaw (encode kSnapshotMagic)).writeRaw
    (encode { snapshot.header with members })
  obtain ⟨hok, hwrote⟩ := writeRequests_wrote (writeKvs_wrote hhead snapshot.kvs) hids
  have hbody : [] ++ encode kSnapshotMagic ++ encode { snapshot.header with members } ++
      snapshot.kvs.flatMap encodeKv ++ snapshot.requestRecords.flatMap encode = snapshotBody snapshot members := by
    simp [snapshotBody]
  rw [hbody] at hwrote
  unfold writeSnapshotToFile
  simp only [hok, Status.fail_OK, Bool.false_eq_true, if_false]
  rw [FileWriter.file_flush, FileWriter.contents_foldl_writeRaw, hwrote.contents, hwrote.crc, hwrote.bytes]
  rfl

/-- What fits the format: strings and counts whose length is an `int32`. -/
structure Fits (snapshot : SnapshotData) (members : List RaftMember) : Prop where
  header : ({ snapshot.header with members } : SnapshotHeader).Fits
  kvs : ∀ kv ∈ snapshot.kvs, kv.1.length < 2 ^ 31 ∧ kv.2.length < 2 ^ 31
  kvCount : snapshot.kvs.length < 2 ^ 31
  records : ∀ r ∈ snapshot.requestRecords, r.Fits
  requestCount : snapshot.requestRecords.length < 2 ^ 31

theorem length_encodeTrailer (snapshot : SnapshotData) (body : Bytes) :
    (encodeTrailer snapshot body).length = kSnapshotTrailerBytes := by
  simp [encodeTrailer, trailerPieces, kSnapshotTrailerBytes]

section Verify

variable {snapshot : SnapshotData} {members : List RaftMember} (h : Fits snapshot members)
include h

/-- The trailer is read back; its counts are not negative. -/
theorem readSnapshotTrailer_decodes (k : BinaryReader) (body : Bytes) :
    (readSnapshotTrailer k).Decodes (encodeTrailer snapshot body) (snapshotTrailer snapshot body) := by
  have hcounts : (decide (0 ≤ Int32.ofNat snapshot.kvs.length) &&
      decide (0 ≤ Int32.ofNat snapshot.requestRecords.length)) = true := by
    rw [decide_eq_true (nonneg_ofNat_int32 h.kvCount), decide_eq_true (nonneg_ofNat_int32 h.requestCount)]
    rfl
  have hchecks := (ensure_decodes (beq_self_eq_true kSnapshotMagic)
    ⟨.error, "snapshot trailer magic mismatch, not a snapshot file or not fully written"⟩).bind
    (f := fun _ => _) ((ensure_decodes hcounts
      ⟨.error, "invalid snapshot counts, kv_count:" ++ toString (Int32.ofNat snapshot.kvs.length).toInt ++
        ", request_count:" ++ toString (Int32.ofNat snapshot.requestRecords.length).toInt⟩).map
      fun _ => snapshotTrailer snapshot body)
  refine (exact_int32 _ k).bind ?_
  refine (exact_int32 _ k).bind ?_
  refine (exact_uint32 _ k).bind ?_
  refine (exact_int64 _ k).bind ?_
  exact (exact_int32 _ k).bind hchecks

end Verify

/-- **Chunks.** The loop computes the checksum of the rest of the body, whatever the size of its buffer. -/
theorem checksumLoop_eq (k : BinaryReader) {bodySize fuel done : Nat} (hfuel : bodySize - done ≤ fuel)
    (runningCrc : UInt32) {data : Bytes} (hdata : bodySize - done ≤ data.length) :
    checksumLoop k bodySize fuel runningCrc done data =
      .ok (updateCrc32 runningCrc (data.take (bodySize - done))) := by
  induction fuel generalizing runningCrc done data with
  | zero => rw [show bodySize - done = 0 by omega, List.take_zero, checksumLoop, updateCrc32_nil]
  | succ fuel ih =>
    unfold checksumLoop
    by_cases hmore : done < bodySize
    · rw [if_pos hmore]
      -- every round reads at least one byte, so the fuel is enough
      set want := min kSnapshotVerifyBufferBytes (bodySize - done) with hwant
      have hpos : 0 < kSnapshotVerifyBufferBytes := by decide
      have hread := k.readRaw_enough (show want ≤ data.length by omega)
      have hrest : bodySize - (done + want) ≤ (data.drop want).length := by
        rw [List.length_drop]
        omega
      simp only [hread]
      rw [ih (by omega) _ hrest, ← updateCrc32_append, ← List.take_add,
        show want + (bodySize - (done + want)) = bodySize - done by omega]
    · rw [if_neg hmore, show bodySize - done = 0 by omega, List.take_zero, updateCrc32_nil]

section Read

variable {snapshot : SnapshotData} {members : List RaftMember} (h : Fits snapshot members) (path : String)
include h

/-- **A file that was written is accepted.** -/
theorem verifySnapshotFile_written :
    verifySnapshotFile path (snapshotFile snapshot members) =
      .ok (snapshotTrailer snapshot (snapshotBody snapshot members)) := by
  unfold snapshotFile
  set body := snapshotBody snapshot members with hbody
  set file := body ++ encodeTrailer snapshot body with hfile
  obtain ⟨rest, hrest⟩ : ∃ rest, body = encode kSnapshotMagic ++ rest := ⟨_, hbody⟩
  have hlen : file.length = body.length + kSnapshotTrailerBytes := by
    rw [hfile, List.length_append, length_encodeTrailer]
  have hhead : 4 ≤ body.length := by
    rw [hrest, List.length_append, length_encode_int32]
    omega
  -- the trailer is read from the end, the body from the start
  have htrailer : readSnapshotTrailer (.file path) (file.drop (file.length - kSnapshotTrailerBytes)) =
      .ok (snapshotTrailer snapshot body, []) := by
    rw [hlen, Nat.add_sub_cancel, hfile, List.drop_left, ← List.append_nil (encodeTrailer snapshot body)]
    exact readSnapshotTrailer_decodes h _ body []
  have hmagic : (decode (.file path) : Decoder Status Int32) file =
      .ok (kSnapshotMagic, rest ++ encodeTrailer snapshot body) := by
    rw [hfile, hrest, List.append_assoc]
    exact exact_int32 kSnapshotMagic _ _
  have hcrc : checksumLoop (.file path) (file.length - kSnapshotTrailerBytes) (file.length - kSnapshotTrailerBytes)
      (updateCrc32 0 (encode kSnapshotMagic)) 4 (rest ++ encodeTrailer snapshot body) = .ok (computeCrc32 body) := by
    have hsize : body.length - 4 = rest.length := by
      rw [hrest, List.length_append, length_encode_int32]
      omega
    rw [hlen, Nat.add_sub_cancel, checksumLoop_eq _ (by omega) _ (by rw [List.length_append]; omega), hsize,
      List.take_left, ← updateCrc32_append, ← hrest]
    rfl
  have hlarge : ¬file.length ≤ kSnapshotTrailerBytes := by omega
  have htotal : (snapshotTrailer snapshot body).totalLen = Int64.ofNat file.length := by rw [hlen]; rfl
  have hstored : (snapshotTrailer snapshot body).bodyCrc32 = computeCrc32 body := rfl
  unfold verifySnapshotFile
  simp only [hlarge, if_false, htrailer, htotal, hmagic, hcrc, hstored, bind, Except.bind, pure, Except.pure, ne_eq,
    not_true_eq_false]

/-- The reader behind the header of a file that was written. -/
def writtenReader (snapshot : SnapshotData) (members : List RaftMember) : SnapshotFileReader :=
  { header := { snapshot.header with members }
    kvCount := Int32.ofNat snapshot.kvs.length
    requestCount := Int32.ofNat snapshot.requestRecords.length
    rest := snapshot.kvs.flatMap encodeKv ++ (snapshot.requestRecords.flatMap encode ++
      encodeTrailer snapshot (snapshotBody snapshot members)) }

/-- The reader stands behind the header, at the first pair. -/
theorem openReader_written :
    SnapshotFileReader.openReader path (snapshotFile snapshot members) = .ok (writtenReader snapshot members) := by
  have hdrop : (snapshotFile snapshot members).drop 4 =
      encode ({ snapshot.header with members } : SnapshotHeader) ++ (writtenReader snapshot members).rest := by
    rw [show 4 = (encode kSnapshotMagic).length from rfl]
    simp only [snapshotFile, snapshotBody, writtenReader, List.append_assoc, List.drop_left]
  unfold SnapshotFileReader.openReader
  rw [verifySnapshotFile_written h path, hdrop]
  simp only [bind, Except.bind, exact_snapshotHeader h.header (.file path) _]
  rfl

/-- The pairs are read back. -/
theorem forEachKv_written :
    ((writtenReader snapshot members).forEachKv path).Decodes (snapshot.kvs.flatMap encodeKv) snapshot.kvs := by
  unfold SnapshotFileReader.forEachKv
  rw [show (writtenReader snapshot members).kvCount.toInt.toNat = snapshot.kvs.length by
    rw [writtenReader, toInt_ofNat_int32 h.kvCount, Int.toNat_natCast]]
  refine .times fun kv hkv => ?_
  exact (exact_bytes (h.kvs kv hkv).1 _).bind ((exact_bytes (h.kvs kv hkv).2 _).map fun value => (kv.1, value))

/-- So are the records, whose operations are writes. -/
theorem forEachRequest_written (hops : ∀ r ∈ snapshot.requestRecords, r.op.isKvWriteOp = true) :
    ((writtenReader snapshot members).forEachRequest path).Decodes (snapshot.requestRecords.flatMap encode)
      snapshot.requestRecords := by
  unfold SnapshotFileReader.forEachRequest
  rw [show (writtenReader snapshot members).requestCount.toInt.toNat = snapshot.requestRecords.length by
    rw [writtenReader, toInt_ofNat_int32 h.requestCount, Int.toNat_natCast]]
  refine .times fun r hr => ?_
  have hop := (ensure_decodes (hops r hr) ⟨.error, "invalid snapshot request op"⟩).map fun _ => r
  have hboth := (exact_requestRecord (h.records r hr) (.file path)).bind (f := fun record => do
    ensure record.op.isKvWriteOp ⟨.error, "invalid snapshot request op"⟩
    pure record) hop
  rwa [List.append_nil] at hboth

end Read

end SnapshotStore

end AdvisKV.Wire

/-! ## The state machine -/

namespace AdvisKV

namespace MapEngine

/-- A map is a list of pairs. -/
theorem get_eq_find? (m : MapEngine) (key : Key) :
    m.get key = (m.entries.find? fun kv => kv.1 = key).map Prod.snd := by
  obtain ⟨entries⟩ := m
  unfold get
  induction entries with
  | nil => rfl
  | cons kv entries ih =>
    obtain ⟨k, v⟩ := kv
    by_cases hk : k = key
    · subst hk
      simp
    · simpa [List.lookup_cons, hk, beq_eq_false_iff_ne.mpr (Ne.symm hk)] using ih

/-- Deleting takes away all pairs with the key. -/
theorem get_del (m : MapEngine) (key k : Key) : (m.del key).get k = if key = k then none else m.get k := by
  rw [get_eq_find?, get_eq_find?, del, List.find?_filter]
  by_cases hk : key = k
  · subst hk
    rw [if_pos rfl, List.find?_eq_none.mpr]
    · rfl
    · simp
  · rw [if_neg hk]
    congr 1
    refine congrArg (List.find? · m.entries) (funext fun kv => ?_)
    by_cases hkv : kv.1 = k
    · simp [hkv, Ne.symm hk]
    · simp [hkv]

theorem get_put (m : MapEngine) (key : Key) (value : Value) (k : Key) :
    (m.put key value).get k = if key = k then some value else m.get k := by
  have hhead : (m.put key value).get k = if key = k then some value else (m.del key).get k := by
    rw [get_eq_find?, get_eq_find?]
    by_cases hk : key = k
    · rw [if_pos hk, put, List.find?_cons_of_pos (by simpa using hk)]
      rfl
    · rw [if_neg hk, put, List.find?_cons_of_neg (by simpa using hk)]
  rw [hhead, get_del]
  split <;> rfl

end MapEngine

namespace KvStateMachine

/-- **The same state**: the same map, the same request records, the same index and term. -/
structure Same (a b : KvStateMachine) : Prop where
  get : ∀ key, a.engine.get key = b.engine.get key
  findRequest : ∀ r, a.findRequest r = b.findRequest r
  applyIndex : a.applyIndex = b.applyIndex
  applyTerm : a.applyTerm = b.applyTerm

variable {m : MapEngine} {a b sm : KvStateMachine}

/-- An operation looks at one key. -/
theorem execute_same {m' : MapEngine} (h : ∀ key, m.get key = m'.get key) (e : LogEntry) :
    (execute m e).2 = (execute m' e).2 ∧ ∀ key, (execute m e).1.get key = (execute m' e).1.get key := by
  have hput : ∀ key, (m.put e.key e.value).get key = (m'.put e.key e.value).get key := fun key => by
    rw [MapEngine.get_put, MapEngine.get_put, h]
  have hdel : ∀ key, (m.del e.key).get key = (m'.del e.key).get key := fun key => by
    rw [MapEngine.get_del, MapEngine.get_del, h]
  unfold execute
  rw [h e.key]
  split
  · exact ⟨rfl, hput⟩
  · exact ⟨rfl, hdel⟩
  · -- a compare-and-set looks at the value before it writes
    split
    · exact ⟨rfl, h⟩
    · split
      · exact ⟨rfl, h⟩
      · exact ⟨rfl, hput⟩
  · exact ⟨rfl, h⟩

/-- Older records come first. -/
theorem findRequest_append (sm : KvStateMachine) (new : List RequestRecord) (r : Bytes) :
    ({ sm with requestRecords := sm.requestRecords ++ new } : KvStateMachine).findRequest r =
      (sm.findRequest r).or (({ requestRecords := new } : KvStateMachine).findRequest r) := by
  unfold findRequest
  split
  · rfl
  · exact List.find?_append

/-- **One entry** has the same outcome in the same state, and leads to the same state. -/
theorem Same.apply (h : a.Same b) (e : LogEntry) :
    (a.apply e).1 = (b.apply e).1 ∧ (a.apply e).2.Same (b.apply e).2 := by
  obtain ⟨houtcome, hengine⟩ := execute_same h.get e
  have hrecord : ∀ r, ({ a with requestRecords := a.record e (execute a.engine e).2 } : KvStateMachine).findRequest r =
      ({ b with requestRecords := b.record e (execute b.engine e).2 } : KvStateMachine).findRequest r := by
    intro r
    rw [← houtcome]
    unfold record
    rw [h.findRequest]
    split
    · exact h.findRequest r
    · rw [findRequest_append, findRequest_append, h.findRequest]
  unfold KvStateMachine.apply
  rw [h.findRequest]
  split
  · exact ⟨rfl, h⟩
  · split
    · exact ⟨rfl, h.get, h.findRequest, rfl, rfl⟩
    · refine ⟨rfl, hengine, fun r => ?_, rfl, rfl⟩
      split
      · exact hrecord r
      · exact h.findRequest r

/-- **Any number of entries.** -/
theorem Same.applyAll (h : a.Same b) (es : List LogEntry) :
    (a.applyAll es).Same (b.applyAll es) := by
  induction es generalizing a b with
  | nil => exact h
  | cons e es ih => exact ih (h.apply e).2

/-! ## Capture and restore -/

/-- What every state machine keeps: keys and request ids are distinct, and only writes with an id are recorded. -/
structure Proper (sm : KvStateMachine) : Prop where
  keys : (sm.engine.entries.map Prod.fst).Nodup
  ids : (sm.requestRecords.map RequestRecord.requestId).Nodup
  named : ∀ r ∈ sm.requestRecords, r.requestId ≠ []
  writes : ∀ r ∈ sm.requestRecords, r.op.isKvWriteOp = true

theorem proper_empty : Proper {} := ⟨List.nodup_nil, List.nodup_nil, by simp, by simp⟩

theorem del_keys (h : (m.entries.map Prod.fst).Nodup) (key : Key) :
    ((m.del key).entries.map Prod.fst).Nodup := h.sublist (List.filter_sublist.map _)

theorem put_keys (h : (m.entries.map Prod.fst).Nodup) (key : Key) (value : Value) :
    ((m.put key value).entries.map Prod.fst).Nodup := by
  refine List.nodup_cons.mpr ⟨?_, del_keys h key⟩
  simp [MapEngine.del]

/-- No operation puts a key twice. -/
theorem execute_keys (h : (m.entries.map Prod.fst).Nodup) (e : LogEntry) :
    ((execute m e).1.entries.map Prod.fst).Nodup := by
  unfold execute
  split
  · exact put_keys h _ _
  · exact del_keys h _
  · split
    · exact h
    · split
      · exact h
      · exact put_keys h _ _
  · exact h

/-- A new record goes behind the others. -/
theorem Proper.record (h : sm.Proper) {e : LogEntry} (hid : e.requestId ≠ [])
    (hop : e.opType.isKvWriteOp = true) (hnew : sm.findRequest e.requestId = none) (st : Status) :
    ({ sm with requestRecords := sm.record e st } : KvStateMachine).Proper := by
  have hfresh : e.requestId ∉ sm.requestRecords.map RequestRecord.requestId := by
    rw [findRequest, if_neg hid, List.find?_eq_none] at hnew
    rintro hmem
    obtain ⟨r, hr, hrid⟩ := List.mem_map.mp hmem
    exact hnew r hr (beq_iff_eq.mpr hrid)
  unfold KvStateMachine.record
  rw [hnew]
  refine ⟨h.keys, ?_, ?_, ?_⟩
  · show (List.map _ (_ ++ [_])).Nodup
    rw [List.map_append]
    exact h.ids.append (List.nodup_singleton _) (List.disjoint_singleton.mpr hfresh)
  · exact List.forall_mem_append.mpr ⟨h.named, by simpa using hid⟩
  · exact List.forall_mem_append.mpr ⟨h.writes, by simpa using hop⟩

/-- **One entry.** -/
theorem Proper.apply (h : sm.Proper) (e : LogEntry) : (sm.apply e).2.Proper := by
  unfold KvStateMachine.apply
  split
  · exact h
  · split
    · exact ⟨h.keys, h.ids, h.named, h.writes⟩
    · next hnew =>
      have hengine := execute_keys h.keys e
      -- a repeated request stops before this, so the record is new
      by_cases hwrite : (decide (e.requestId ≠ []) && e.opType.isKvWriteOp) = true
      · obtain ⟨hid, hop⟩ := Bool.and_eq_true_iff.mp hwrite
        have hrecord := h.record (of_decide_eq_true hid) hop (by simpa using hnew) (execute sm.engine e).2
        simp only [hwrite, if_true]
        exact ⟨hengine, hrecord.ids, hrecord.named, hrecord.writes⟩
      · simp only [hwrite, Bool.false_eq_true, if_false]
        exact ⟨hengine, h.ids, h.named, h.writes⟩

/-- **Any number of entries.** -/
theorem Proper.applyAll (h : sm.Proper) (es : List LogEntry) : (sm.applyAll es).Proper := by
  induction es generalizing sm with
  | nil => exact h
  | cons e es ih => exact ih (h.apply e)

/-- A snapshot of the state; the maps are dumped in any order. -/
structure Captures (sm : KvStateMachine) (d : SnapshotData) : Prop where
  applyIndex : d.header.applyIndex = sm.applyIndex
  applyTerm : d.header.applyTerm = sm.applyTerm
  kvs : d.kvs.Perm sm.engine.entries
  records : d.requestRecords.Perm sm.requestRecords

/-- The model dumps its maps in the order they are in. -/
theorem captures_captureSnapshot (sm : KvStateMachine) : sm.Captures sm.captureSnapshot :=
  ⟨rfl, rfl, List.Perm.refl _, List.Perm.refl _⟩

/-- Distinct keys put into a map end up there, the last one first. -/
theorem entries_foldl_put {kvs : List (Key × Value)} (h : ((m.entries ++ kvs).map Prod.fst).Nodup) :
    (kvs.foldl (fun m kv => m.put kv.1 kv.2) m).entries = kvs.reverse ++ m.entries := by
  induction kvs generalizing m with
  | nil => rfl
  | cons kv kvs ih =>
    rw [List.map_append, List.map_cons, List.nodup_middle, List.nodup_cons, List.mem_append, not_or] at h
    obtain ⟨⟨hfresh, hlater⟩, hrest⟩ := h
    have hput : (m.put kv.1 kv.2).entries = kv :: m.entries := by
      refine congrArg (kv :: ·) (List.filter_eq_self.mpr fun x hx => bne_iff_ne.mpr ?_)
      exact fun heq => hfresh (heq ▸ List.mem_map_of_mem hx)
    rw [List.foldl_cons, ih, hput]
    · simp
    · rw [hput, List.cons_append, List.map_cons, List.nodup_cons, List.map_append]
      exact ⟨fun hmem => (List.mem_append.mp hmem).elim hfresh hlater, hrest⟩

/-- Distinct records replace nothing. -/
theorem foldl_record {records old : List RequestRecord}
    (h : ((old ++ records).map RequestRecord.requestId).Nodup) :
    records.foldl (fun rs r => rs.filter (fun x => x.requestId != r.requestId) ++ [r]) old = old ++ records := by
  induction records generalizing old with
  | nil => simp
  | cons r records ih =>
    have hfilter : old.filter (fun x => x.requestId != r.requestId) = old := by
      rw [List.map_append, List.map_cons, List.nodup_middle, List.nodup_cons, List.mem_append, not_or] at h
      refine List.filter_eq_self.mpr fun x hx => bne_iff_ne.mpr ?_
      exact fun heq => h.1.1 (heq ▸ List.mem_map_of_mem hx)
    rw [List.foldl_cons, hfilter, ih]
    · rw [List.append_assoc, List.singleton_append]
    · rwa [List.append_assoc, List.singleton_append]

/-- **Restoring** a snapshot gives the state it was taken of. -/
theorem restore_captured (hsm : sm.Proper) {d : SnapshotData} (hd : sm.Captures d) :
    ∃ restored, restore d = .ok restored ∧ restored.Same sm := by
  have hkeys : (d.kvs.map Prod.fst).Nodup := (hd.kvs.map Prod.fst).nodup_iff.mpr hsm.keys
  have hids : (d.requestRecords.map RequestRecord.requestId).Nodup :=
    (hd.records.map RequestRecord.requestId).nodup_iff.mpr hsm.ids
  have hnamed : (d.requestRecords.any fun r => r.requestId == []) = false := by
    rw [List.any_eq_false]
    exact fun r hr => by simpa using hsm.named r (hd.records.mem_iff.mp hr)
  have hengine : (d.kvs.foldl (fun m kv => m.put kv.1 kv.2) ({} : MapEngine)).entries = d.kvs.reverse := by
    rw [entries_foldl_put (by simpa using hkeys)]
    exact List.append_nil _
  have hrecords : d.requestRecords.foldl
      (fun rs r => rs.filter (fun x => x.requestId != r.requestId) ++ [r]) [] = d.requestRecords :=
    foldl_record (by simpa using hids)
  refine ⟨_, by unfold restore; rw [hnamed]; rfl, ?_, ?_, ?_, ?_⟩
  · -- a dump in another order has the same pairs, and keys are distinct
    intro key
    rw [MapEngine.get_eq_find?, MapEngine.get_eq_find?, hengine]
    have hperm : d.kvs.reverse.Perm sm.engine.entries := d.kvs.reverse_perm.trans hd.kvs
    rw [Keyed.find?_perm hperm ((hperm.map Prod.fst).nodup_iff.mpr hsm.keys) key]
  · intro r
    have hbeq : (fun x : RequestRecord => x.requestId == r) = fun x => decide (x.requestId = r) :=
      funext fun x => by rw [Bool.eq_iff_iff, beq_iff_eq, decide_eq_true_eq]
    unfold findRequest
    rw [hrecords, hbeq]
    split
    · rfl
    · exact Keyed.find?_perm hd.records hids r
  · exact hd.applyIndex
  · exact hd.applyTerm

end KvStateMachine

end AdvisKV

/-! ## Through the file -/

namespace AdvisKV.Wire

open KvStateMachine (Same Proper Captures)

/-- A snapshot whose strings, counts, index and term are in the range of the machine types. -/
structure FitsModel (d : AdvisKV.SnapshotData) (members : List RaftMember) : Prop where
  applyIndex : d.header.applyIndex < 2 ^ 63
  applyTerm : d.header.applyTerm < 2 ^ 63
  memberCount : members.length < 2 ^ 31
  members : ∀ m ∈ members, m.peer.Fits
  kvs : ∀ kv ∈ d.kvs, kv.1.length < 2 ^ 31 ∧ kv.2.length < 2 ^ 31
  kvCount : d.kvs.length < 2 ^ 31
  records : ∀ r ∈ d.requestRecords, r.requestId.length < 2 ^ 31 ∧ (textBytes r.applyStatus.msg).length < 2 ^ 31
  requestCount : d.requestRecords.length < 2 ^ 31

variable {d : AdvisKV.SnapshotData} {members : List RaftMember}

/-- In range in the model means in range on disk. -/
theorem FitsModel.fits (h : FitsModel d members) :
    SnapshotStore.Fits (.ofModel d) members where
  header := ⟨h.memberCount, h.members⟩
  kvs := h.kvs
  kvCount := h.kvCount
  records := by
    rintro r hr
    obtain ⟨x, hx, rfl⟩ := List.mem_map.mp hr
    exact ⟨(h.records x hx).1, (h.records x hx).2⟩
  requestCount := by
    show (d.requestRecords.map _).length < _
    rw [List.length_map]
    exact h.requestCount

theorem toInt_ofNat_int64 {n : Nat} (h : n < 2 ^ 63) : (Int64.ofNat n).toInt.toNat = n := by
  rw [Int64.toInt_ofNat_of_lt h, Int.toNat_natCast]

/-- **A file that was written is read back.** -/
theorem readSnapshot_written (hfits : FitsModel d members)
    (hops : ∀ r ∈ d.requestRecords, r.op.isKvWriteOp = true) (path : String) :
    readSnapshot path (SnapshotStore.snapshotFile (.ofModel d) members) =
      .ok { d with header := { d.header with members := members.map RaftMember.toModel } } := by
  have hopsWire : ∀ r ∈ (SnapshotData.ofModel d).requestRecords, r.op.isKvWriteOp = true := by
    rintro r hr
    obtain ⟨x, hx, rfl⟩ := List.mem_map.mp hr
    exact hops x hx
  have hrecords : (SnapshotData.ofModel d).requestRecords.map RequestRecord.toModel = d.requestRecords := by
    simp [SnapshotData.ofModel, RequestRecord.toModel_ofModel, Function.comp_def]
  have hheader : ({ (SnapshotData.ofModel d).header with members } : SnapshotHeader).toModel =
      { d.header with members := members.map RaftMember.toModel } := by
    simp only [SnapshotHeader.toModel, SnapshotData.ofModel, toInt_ofNat_int64 hfits.applyIndex,
      toInt_ofNat_int64 hfits.applyTerm]
  set reader := SnapshotStore.writtenReader (.ofModel d) members with hreader
  have hkvs : reader.forEachKv path reader.rest = .ok (d.kvs, _) :=
    SnapshotStore.forEachKv_written hfits.fits path _
  have hrequests : reader.forEachRequest path _ = .ok ((SnapshotData.ofModel d).requestRecords, _) :=
    SnapshotStore.forEachRequest_written hfits.fits path hopsWire
      (SnapshotStore.encodeTrailer (.ofModel d) (SnapshotStore.snapshotBody (.ofModel d) members))
  have hhead : reader.header.toModel = { d.header with members := members.map RaftMember.toModel } := hheader
  unfold readSnapshot
  rw [SnapshotStore.openReader_written hfits.fits path]
  simp only [bind, Except.bind, ← hreader, hkvs, hrequests, hrecords, hhead]
  rfl

/-- **Snapshot transparency.** Whatever order the maps are dumped in, the file of a snapshot is accepted and carries the
given members, and the state restored from it goes on as the one it was taken of. -/
theorem snapshot_transparent (l₁ l₂ : List AdvisKV.LogEntry) {d : AdvisKV.SnapshotData}
    (hd : (({} : KvStateMachine).applyAll l₁).Captures d) {members : List RaftMember} (hfits : FitsModel d members)
    (path : String) :
    ∃ file trailer reader restored,
      SnapshotStore.writeSnapshotToFile (.ofModel d) members = (.OK, file) ∧
      verifySnapshotFile path file = .ok trailer ∧
      SnapshotFileReader.openReader path file = .ok reader ∧ reader.header.members = members ∧
      restoreFromFile path file = .ok restored ∧
      (restored.applyAll l₂).Same (({} : KvStateMachine).applyAll (l₁ ++ l₂)) := by
  have hproper := KvStateMachine.proper_empty.applyAll l₁
  have hids : ∀ r ∈ (SnapshotData.ofModel d).requestRecords, r.requestId ≠ [] := by
    rintro r hr
    obtain ⟨x, hx, rfl⟩ := List.mem_map.mp hr
    exact hproper.named x (hd.records.mem_iff.mp hx)
  obtain ⟨restored, hrestore, hsame⟩ := KvStateMachine.restore_captured hproper
    (d := { d with header := { d.header with members := members.map RaftMember.toModel } })
    ⟨hd.applyIndex, hd.applyTerm, hd.kvs, hd.records⟩
  refine ⟨_, _, _, restored, SnapshotStore.writeSnapshotToFile_eq hids members,
    SnapshotStore.verifySnapshotFile_written hfits.fits path,
    SnapshotStore.openReader_written hfits.fits path, rfl, ?_, ?_⟩
  · rw [restoreFromFile, readSnapshot_written hfits (fun r hr => hproper.writes r (hd.records.mem_iff.mp hr)) path]
    exact hrestore
  · rw [KvStateMachine.applyAll, KvStateMachine.applyAll, List.foldl_append]
    exact hsame.applyAll l₂

/-- A write and a compare-and-set that fails. -/
def writtenLog : List AdvisKV.LogEntry :=
  [ { term := 1, index := 1, opType := .put, key := [107], value := [1], requestId := [7] },
    { term := 1, index := 2, opType := .cas, key := [107], value := [3], expected := [2], requestId := [8] } ]

/-- The compare-and-set again, when it would succeed. -/
def laterLog : List AdvisKV.LogEntry :=
  [ { term := 2, index := 3, opType := .put, key := [107], value := [2] },
    { term := 2, index := 4, opType := .cas, key := [107], value := [3], expected := [2], requestId := [8] } ]

def oneVoter : List RaftMember :=
  [{ peer := { nodeId := [110], replicaId := { tableId := 1, shardIndex := 0, replicaSeq := 1 } }
     memberType := .voter }]

theorem failed_cas_survives :
    ∃ file trailer reader restored,
      SnapshotStore.writeSnapshotToFile (.ofModel (({} : KvStateMachine).applyAll writtenLog).captureSnapshot) oneVoter =
        (.OK, file) ∧
      verifySnapshotFile "snapshot" file = .ok trailer ∧
      SnapshotFileReader.openReader "snapshot" file = .ok reader ∧ reader.header.members = oneVoter ∧
      restoreFromFile "snapshot" file = .ok restored ∧
      (restored.applyAll laterLog).Same (({} : KvStateMachine).applyAll (writtenLog ++ laterLog)) :=
  snapshot_transparent writtenLog laterLog (KvStateMachine.captures_captureSnapshot _)
    ⟨by decide, by decide, by decide, by simp [oneVoter, PeerMember.Fits], by decide, by decide, by decide, by decide⟩
    "snapshot"

end AdvisKV.Wire
