import AdvisKV.Lib.Machine
import AdvisKV.Model.SampleCodec
import AdvisKV.Model.SnapshotSender
import AdvisKV.Replica.LoopSteps

/-!
# AdvisKV — a snapshot in chunks

The sender cuts a file into chunks; the receiver appends them to a temporary file that is named after the index of
the snapshot alone. Chunks of other transfers may arrive in between, also of the same index. The session remembers
whose chunks are appended, and a first chunk starts the temporary file anew.

Main results:

* `RaftSender.sendLoop_spec` — what goes out, and that the loop ends.
* `Session.step`, `Session.run` — the temporary file of a session is the beginning of the file of one transfer.
* `chunked_transfer` — what is published is the file of one transfer, or nothing is.
-/

namespace AdvisKV

/-! ## The sender -/

namespace RaftSender

/-- The chunk at `offset`. -/
def chunkAt (chunkBytes : Nat) (file : Bytes) (param : InstallSnapshotParam) (offset : Nat) : InstallSnapshotParam :=
  let data := (file.drop offset).take chunkBytes
  { param with offset, data, done := decide (file.length ≤ offset + data.length) }

/-- All chunks from `offset` on. -/
def chunksFrom (chunkBytes : Nat) (file : Bytes) (param : InstallSnapshotParam) :
    Nat → Nat → List InstallSnapshotParam
  | 0, _ => []
  | fuel + 1, offset =>
    let chunk := chunkAt chunkBytes file param offset
    chunk :: if chunk.done then [] else chunksFrom chunkBytes file param fuel (offset + chunk.data.length)

/-- The chunks of a file. Every chunk but the last takes at least one byte. -/
def chunksOf (chunkBytes : Nat) (file : Bytes) (param : InstallSnapshotParam) : List InstallSnapshotParam :=
  chunksFrom chunkBytes file param (file.length + 1) 0

variable {chunkBytes : Nat} {file : Bytes} {param : InstallSnapshotParam}

/-- The reader cuts a chunk off at the end of the file. -/
theorem readChunk_eq (param : InstallSnapshotParam) {offset : Nat} (h : offset ≤ file.length) :
    readChunk file offset chunkBytes =
      .ok ((chunkAt chunkBytes file param offset).data, (chunkAt chunkBytes file param offset).done) := by
  unfold readChunk chunkAt
  rw [if_neg (by omega)]
  have htake : (file.drop offset).take (min chunkBytes (file.length - offset)) =
      (file.drop offset).take chunkBytes := by
    rw [← List.length_drop, ← List.take_take, List.take_length]
  simp only [htake, List.length_take, List.length_drop]

theorem length_data_chunkAt (chunkBytes : Nat) (file : Bytes) (param : InstallSnapshotParam) (offset : Nat) :
    (chunkAt chunkBytes file param offset).data.length = min chunkBytes (file.length - offset) := by
  simp [chunkAt]

theorem done_chunkAt (chunkBytes : Nat) (file : Bytes) (param : InstallSnapshotParam) (offset : Nat) :
    (chunkAt chunkBytes file param offset).done = true ↔
      file.length ≤ offset + (chunkAt chunkBytes file param offset).data.length := by
  simp [chunkAt]

/-- A chunk that says it is the last one takes the rest of the file. -/
theorem data_chunkAt_of_done {offset : Nat} (h : (chunkAt chunkBytes file param offset).done = true) :
    (chunkAt chunkBytes file param offset).data = file.drop offset := by
  rw [done_chunkAt, length_data_chunkAt] at h
  exact List.take_of_length_le (by rw [List.length_drop]; omega)

section Positive

variable (hpos : 0 < chunkBytes)
include hpos

/-- **The chunks of a file**: together they are the file, and the last one, and no other, says that it is. -/
theorem chunksFrom_spec (param : InstallSnapshotParam) {fuel offset : Nat} (hoffset : offset ≤ file.length)
    (hfuel : file.length - offset < fuel) :
    ((chunksFrom chunkBytes file param fuel offset).map InstallSnapshotParam.data).flatten = file.drop offset ∧
    (∃ init last, chunksFrom chunkBytes file param fuel offset = init ++ [last] ∧ last.done = true ∧
      ∀ c ∈ init, c.done = false) ∧
    ∀ c ∈ chunksFrom chunkBytes file param fuel offset, ∃ o ≤ file.length, c = chunkAt chunkBytes file param o := by
  induction fuel generalizing offset with
  | zero => omega
  | succ fuel ih =>
    have hlen := length_data_chunkAt chunkBytes file param offset
    have hdone := done_chunkAt chunkBytes file param offset
    unfold chunksFrom
    set chunk := chunkAt chunkBytes file param offset with hchunk
    by_cases hlast : chunk.done = true
    · simp only [hlast, if_true]
      refine ⟨?_, ⟨[], chunk, rfl, hlast, by simp⟩, ?_⟩
      · rw [List.map_singleton, List.flatten_singleton, hchunk, data_chunkAt_of_done hlast]
      · exact fun c hc => ⟨offset, hoffset, List.mem_singleton.mp hc⟩
    · simp only [hlast, Bool.false_eq_true, if_false]
      have hmore := mt hdone.mpr hlast
      -- a chunk that is not the last one is full
      have hsize : chunk.data.length = chunkBytes := by omega
      obtain ⟨hflatten, ⟨init, last, hsplit, hlastDone, hinit⟩, hall⟩ :=
        ih (show offset + chunk.data.length ≤ file.length by omega) (by omega)
      refine ⟨?_, ⟨chunk :: init, last, by rw [hsplit]; rfl, hlastDone, ?_⟩, ?_⟩
      · rw [List.map_cons, List.flatten_cons, hflatten, ← List.drop_drop, hsize]
        exact List.take_append_drop chunkBytes (file.drop offset)
      · exact List.forall_mem_cons.mpr ⟨Bool.eq_false_iff.mpr hlast, hinit⟩
      · exact List.forall_mem_cons.mpr ⟨⟨offset, hoffset, rfl⟩, hall⟩

/-- **The loop ends**, and what it has sent is a beginning of the chunks; all of them when every call succeeds. -/
theorem sendLoop_spec (param : InstallSnapshotParam) (transport : Transport) {fuel offset : Nat}
    (hoffset : offset ≤ file.length)
    (hfuel : file.length - offset < fuel) (n : Nat) (result : InstallSnapshotResult) :
    ∃ sent, sendLoop chunkBytes file param transport fuel n offset result = some sent ∧
      sent.chunks <+: chunksFrom chunkBytes file param fuel offset ∧
      ((∀ i c, (transport i c).1.fail = false ∧ (transport i c).2.status.fail = false) →
        sent.chunks = chunksFrom chunkBytes file param fuel offset) := by
  induction fuel generalizing offset n result with
  | zero => omega
  | succ fuel ih =>
    have hlen := length_data_chunkAt chunkBytes file param offset
    have hdone := done_chunkAt chunkBytes file param offset
    unfold chunksFrom sendLoop
    rw [readChunk_eq param hoffset]
    set chunk := chunkAt chunkBytes file param offset with hchunk
    have hsent : ({ param with offset, data := chunk.data, done := chunk.done } : InstallSnapshotParam) = chunk := rfl
    have hone : ∀ rest, [chunk] <+: chunk :: rest := fun rest => ⟨rest, rfl⟩
    simp only [hsent]
    -- the loop ends with the first call that fails or is refused
    by_cases hcall : (transport n chunk).1.fail = true
    · rw [if_pos hcall]
      exact ⟨_, rfl, hone _, fun hok => absurd hcall (by rw [(hok n chunk).1]; decide)⟩
    rw [if_neg hcall]
    by_cases hresult : (transport n chunk).2.status.fail = true
    · rw [if_pos hresult]
      exact ⟨_, rfl, hone _, fun hok => absurd hresult (by rw [(hok n chunk).2]; decide)⟩
    rw [if_neg hresult]
    by_cases hlast : chunk.done = true
    · rw [if_pos hlast, if_pos hlast]
      exact ⟨_, rfl, List.prefix_refl _, fun _ => rfl⟩
    · have hmore := mt hdone.mpr hlast
      obtain ⟨sent, hsome, hpre, hall⟩ := ih (show offset + chunk.data.length ≤ file.length by omega) (by omega)
        (n + 1) (transport n chunk).2
      rw [if_neg hlast, if_neg hlast, hsome]
      exact ⟨_, rfl, (List.prefix_cons_inj chunk).mpr hpre, fun hok => congrArg (chunk :: ·) (hall hok)⟩

end Positive

end RaftSender

/-! ## The receiver -/

/-- The file of the transfer of a sender, a term and a snapshot index. -/
abbrev TransferFiles := ReplicaID → Nat → Nat → Bytes

/-- One of the chunks a sender makes of its file, with a chunk size of its own. -/
def FromTransfer (files : TransferFiles) (param : InstallSnapshotParam) : Prop :=
  ∃ chunkBytes > 0, ∃ start : InstallSnapshotParam,
    param ∈ RaftSender.chunksOf chunkBytes (files start.fromReplicaId start.term start.snapshotIndex) start

def InstallSnapshotParam.file (files : TransferFiles) (param : InstallSnapshotParam) : Bytes :=
  files param.fromReplicaId param.term param.snapshotIndex

def ReceivingSnapshot.file (files : TransferFiles) (s : ReceivingSnapshot) : Bytes :=
  files s.fromReplicaId s.term s.snapshotIndex

variable {files : TransferFiles} {param : InstallSnapshotParam}

/-- A chunk continues the beginning of its file, and a last one completes it. -/
theorem FromTransfer.chunk (h : FromTransfer files param) :
    param.offset + param.data.length ≤ (param.file files).length ∧
      (param.file files).take param.offset ++ param.data =
        (param.file files).take (param.offset + param.data.length) ∧
      (param.done = true → (param.file files).take (param.offset + param.data.length) = param.file files) := by
  obtain ⟨chunkBytes, hpos, start, hmem⟩ := h
  obtain ⟨offset, hoffset, rfl⟩ := (RaftSender.chunksFrom_spec hpos start (Nat.zero_le _) (by omega)).2.2 param hmem
  have hlen := RaftSender.length_data_chunkAt chunkBytes
    (files start.fromReplicaId start.term start.snapshotIndex) start offset
  have hdone := RaftSender.done_chunkAt chunkBytes
    (files start.fromReplicaId start.term start.snapshotIndex) start offset
  set file := files start.fromReplicaId start.term start.snapshotIndex with hfile
  set chunk := RaftSender.chunkAt chunkBytes file start offset with hchunk
  show offset + chunk.data.length ≤ file.length ∧ file.take offset ++ chunk.data =
    file.take (offset + chunk.data.length) ∧ (chunk.done = true → file.take (offset + chunk.data.length) = file)
  refine ⟨by omega, ?_, fun h => List.take_of_length_le (hdone.mp h)⟩
  have hdata : chunk.data = (file.drop offset).take chunk.data.length := by
    rw [hlen, ← List.length_drop, ← List.take_take, List.take_length]
    rfl
  rw [List.take_add]
  exact congrArg (_ ++ ·) hdata

/-- **The temporary file of a session** is the beginning of the file of its transfer. -/
def Session (files : TransferFiles) (l : ReplicaLoop) : Prop :=
  ∀ s, l.receiving = some s → s.nextOffset ≤ (s.file files).length ∧
    l.receivingFiles s.snapshotIndex = (s.file files).take s.nextOffset

variable {l : ReplicaLoop}

/-- What a chunk is appended to is the file of its own transfer up to its offset. -/
theorem Session.before (hl : Session files l)
    (hsession : param.offset = 0 ∨ l.receiving = some (ReplicaLoop.sessionOf param param.offset)) :
    (if param.offset = 0 then [] else l.receivingFiles param.snapshotIndex) =
      (param.file files).take param.offset := by
  by_cases hfirst : param.offset = 0
  · rw [if_pos hfirst, hfirst, List.take_zero]
  · rw [if_neg hfirst]
    exact (hl _ (hsession.resolve_left hfirst)).2

namespace ReplicaLoop

/-- The chunks among the events are those of transfers. -/
def Transfers (files : TransferFiles) (ev : LoopEvent) : Prop :=
  ∀ param, ev = .installSnapshot param → FromTransfer files param

theorem iterate_session (codec : SnapshotCodec) (hl : Session files l) {ev : LoopEvent}
    (hev : Transfers files ev) : Session files (l.iterate codec ev).loop := by
  have h := iterate_receiving codec l ev
  intro s hs
  rw [hs] at h
  generalize (l.iterate codec ev).loop.receivingFiles = after at h ⊢
  generalize hsome : some s = r at h
  cases h with
  | none => cases hsome
  | same => exact hl s hsome.symm
  | @chunk param hsession =>
    -- whatever transfer the chunk is of, the session that is left is one of that transfer
    cases hsome
    obtain ⟨hwithin, hnext, -⟩ := (hev param rfl).chunk
    refine ⟨hwithin, (Function.update_self ..).trans ?_⟩
    unfold receivedFile
    rw [hl.before hsession]
    exact hnext

/-- What a call that publishes has received is the whole file of its own transfer. -/
theorem Receives.file {codec : SnapshotCodec} {received : SnapshotData} (h : Receives codec l param received)
    (hl : Session files l) (hparam : FromTransfer files param) :
    l.receivedFile param = param.file files := by
  obtain ⟨-, hnext, hlast⟩ := hparam.chunk
  unfold receivedFile
  rw [hl.before h.session_eq, hnext, hlast h.done]

/-- What a call does to the published snapshot. -/
theorem iterate_chunk_snapshot (codec : SnapshotCodec) (l : ReplicaLoop) (param : InstallSnapshotParam) :
    (l.iterate codec (.installSnapshot param)).loop.state.persist.snapshot = l.state.persist.snapshot ∨
      ∃ received, Receives codec l param received ∧
        (l.iterate codec (.installSnapshot param)).loop.state.persist.snapshot = some received := by
  obtain ⟨s, hchange, happlies⟩ := iterate_change codec l (.installSnapshot param)
  rw [happlies.frame.2]
  cases hchange with
  | idle => exact Or.inl rfl
  | runs _ => exact Or.inl (ReplicaState.executeEvent_snapshot _ _)
  | received hreceives hrestore =>
    refine Or.inr ⟨_, hreceives, ?_⟩
    rw [ReplicaState.finishInstallSnapshot_of_restore hrestore, ReplicaState.executeEvent_snapshot]
  | unrestorable hreceives hrefused =>
    refine Or.inr ⟨_, hreceives, ?_⟩
    rw [ReplicaState.finishInstallSnapshot_of_error hrefused]

end ReplicaLoop

/-- The steps of a replica: an event of its queue, or one of its snapshot worker. -/
inductive ReceiverAction where
  | event (ev : LoopEvent)
  | workerPost
  | workerClear

namespace ReceiverAction

def step (codec : SnapshotCodec) : ReceiverAction → ReplicaLoop → Option ReplicaLoop
  | event ev, l => some (l.iterate codec ev).loop
  | workerPost, l => some l.workerPost
  | workerClear, l => some l.workerClear

/-- Every chunk among the events is one of a transfer. -/
def Transfers (files : TransferFiles) (_ : ReplicaLoop) : ReceiverAction → Prop
  | event ev => ReplicaLoop.Transfers files ev
  | _ => True

end ReceiverAction

theorem Session.worker {l l' : ReplicaLoop} (hl : Session files l) (h : l.WorkerStep l') : Session files l' := by
  rw [h.same]
  exact hl

theorem Session.step {codec : SnapshotCodec} (l : ReplicaLoop) (a : ReceiverAction) (l' : ReplicaLoop)
    (hl : Session files l) (ha : a.Transfers files l) (hstep : a.step codec l = some l') : Session files l' := by
  cases a with
  | event ev =>
    obtain rfl := Option.some.inj hstep
    exact ReplicaLoop.iterate_session codec hl ha
  | workerPost =>
    obtain rfl := Option.some.inj hstep
    exact hl.worker (ReplicaLoop.workerPost_step l)
  | workerClear =>
    obtain rfl := Option.some.inj hstep
    exact hl.worker (ReplicaLoop.workerClear_step l)

/-- **Chunked transfer.** The loop of the sender ends; without a failure its chunks are the file, and only the last
one is marked. At a replica that starts without a session, whatever it does and whatever transfers its chunks are
of, a call publishes the file of one transfer or leaves the published snapshot alone. -/
theorem chunked_transfer (codec : SnapshotCodec) {chunkBytes : Nat} (hpos : 0 < chunkBytes) {l₀ l : ReplicaLoop}
    (hstart : l₀.receiving = none) (hrun : Machine.GuardedRun (ReceiverAction.step codec)
      (fun l a => ReceiverAction.Transfers files l a) l₀ l) (hparam : FromTransfer files param) :
    (∀ file d start transport, codec.decode file = .ok d → (RaftSender.verifyHeader d.header start).fail = false →
      ∃ sent init last,
      RaftSender.sendInstallSnapshot codec chunkBytes (some file) start transport (file.length + 1) = some sent ∧
      ((init ++ [last]).map InstallSnapshotParam.data).flatten = file ∧
      last.done = true ∧ (∀ c ∈ init, c.done = false) ∧ sent.chunks <+: init ++ [last] ∧
      ((∀ i c, (transport i c).1.fail = false ∧ (transport i c).2.status.fail = false) →
        sent.chunks = init ++ [last])) ∧
    (∀ received, ReplicaLoop.Receives codec l param received → l.receivedFile param = param.file files) ∧
    ((l.iterate codec (.installSnapshot param)).loop.state.persist.snapshot = l.state.persist.snapshot ∨
      ∃ received, ReplicaLoop.Receives codec l param received ∧
        (l.iterate codec (.installSnapshot param)).loop.state.persist.snapshot = some received) := by
  have hsession : Session files l :=
    hrun.invariant Session.step fun s hs => absurd hs (by rw [hstart]; simp)
  refine ⟨fun file d start transport hdecode hheader => ?_, fun received h => h.file hsession hparam,
    ReplicaLoop.iterate_chunk_snapshot codec l param⟩
  obtain ⟨hflatten, ⟨init, last, hsplit, hlast, hinit⟩, -⟩ :=
    RaftSender.chunksFrom_spec hpos start (Nat.zero_le file.length) (Nat.lt_succ_self _)
  obtain ⟨sent, hsome, hpre, hall⟩ := RaftSender.sendLoop_spec hpos start transport
    (Nat.zero_le file.length) (Nat.lt_succ_self _) 0 { term := start.term }
  rw [hsplit] at hflatten hpre hall
  refine ⟨sent, init, last, ?_, hflatten, hlast, hinit, hpre, hall⟩
  simp only [RaftSender.sendInstallSnapshot, hdecode, hheader]
  exact hsome

def pairPeer (seq : Int) : PeerMember :=
  { nodeId := [110], replicaId := { tableId := 1, shardIndex := 0, replicaSeq := seq } }

def followingReplica : ReplicaLoop :=
  { state := { core := RaftCore.create (pairPeer 2).replicaId [pairPeer 1, pairPeer 2] fun _ => 10 } }

def snapshotOfFive : SnapshotData := { header := { applyIndex := 5, applyTerm := 1 } }

/-- Files that start with the bytes 1 and 2; `snapshotOfFive` has no others. -/
def headedCodec : SnapshotCodec where
  encode d := 1 :: 2 :: (sampleCodec snapshotOfFive).encode d
  decode
    | 1 :: 2 :: rest => (sampleCodec snapshotOfFive).decode rest
    | _ => .error ⟨.error, "invalid snapshot file"⟩
  decode_encode := (sampleCodec snapshotOfFive).decode_encode

/-- The file of index 5 is that of `snapshotOfFive`. -/
def twoTransfers : TransferFiles := fun _ _ index => if index = 5 then [1, 2] else [0, 0]

def chunkOfThree : InstallSnapshotParam :=
  { fromReplicaId := (pairPeer 1).replicaId, toReplicaId := (pairPeer 2).replicaId, term := 1
    snapshotIndex := 3, data := [0] }

def firstOfFive : InstallSnapshotParam := { chunkOfThree with snapshotIndex := 5, data := [1] }

def lastOfFive : InstallSnapshotParam := { firstOfFive with offset := 1, data := [2], done := true }

/-- A transfer of index 3 has been left off, one of index 5 has begun. -/
def afterChunks : ReplicaLoop :=
  ((followingReplica.iterate headedCodec (.installSnapshot chunkOfThree)).loop.iterate headedCodec
    (.installSnapshot firstOfFive)).loop

theorem second_transfer_published :
    ReplicaLoop.Receives headedCodec afterChunks lastOfFive snapshotOfFive ∧
    afterChunks.receivedFile lastOfFive = [1, 2] ∧
    (afterChunks.iterate headedCodec (.installSnapshot lastOfFive)).loop.state.persist.snapshot =
      some snapshotOfFive := by
  have hchunk : FromTransfer twoTransfers chunkOfThree := ⟨1, by decide, chunkOfThree, by decide⟩
  have hfirst : FromTransfer twoTransfers firstOfFive := ⟨1, by decide, firstOfFive, by decide⟩
  have hlast : FromTransfer twoTransfers lastOfFive := ⟨1, by decide, lastOfFive, by decide⟩
  have hrun : Machine.GuardedRun (ReceiverAction.step headedCodec)
      (fun l a => ReceiverAction.Transfers twoTransfers l a) followingReplica afterChunks :=
    .head ⟨.event (.installSnapshot chunkOfThree), fun param h => by cases h; exact hchunk, rfl⟩
      (.single ⟨.event (.installSnapshot firstOfFive), fun param h => by cases h; exact hfirst, rfl⟩)
  have hreceives : ReplicaLoop.Receives headedCodec afterChunks lastOfFive snapshotOfFive :=
    ⟨by decide, by decide, rfl, Or.inr ⟨_, rfl, rfl, rfl, rfl, rfl⟩, Or.inr rfl, rfl⟩
  exact ⟨hreceives, (chunked_transfer headedCodec Nat.one_pos rfl hrun hlast).2.1 _ hreceives, rfl⟩

end AdvisKV
