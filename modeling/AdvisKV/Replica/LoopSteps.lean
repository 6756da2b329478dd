import AdvisKV.Model.ReplicaLoop
import AdvisKV.Replica.ApplyMoves

/-!
# AdvisKV — what one iteration of the loop does to a replica

The inversion lemma for `ReplicaLoop.iterate`: the handler of an event leaves the replica alone, runs one
handler of the core through the executor, or installs a snapshot it has received or captured; then
committed entries are applied. The trackers never touch the replica.

Main results:

* `ReplicaLoop.handle_change` — what a handler does.
* `ReplicaLoop.iterate_change` — what an iteration does.
-/

namespace AdvisKV

/-! ## The executor -/

/-- Whatever the executor reports, the core is the one the handler left. -/
@[simp] theorem ReplicaState.executeEvent_core (s : ReplicaState) (ev : CoreEvent) :
    (s.executeEvent ev).2.1.core = (ev.step { core := s.core }).core := by
  simp only [executeEvent, execute]
  repeat' split
  all_goals rfl

@[simp] theorem ReplicaState.executeEvent_stateMachine (s : ReplicaState) (ev : CoreEvent) :
    (s.executeEvent ev).2.1.stateMachine = s.stateMachine := by
  simp only [executeEvent, execute]
  repeat' split
  all_goals rfl

/-- The files change as the recorded effects say. -/
theorem ReplicaState.executeEvent_persist (s : ReplicaState) (ev : CoreEvent) :
    (s.executeEvent ev).2.1.persist =
      (s.persist.persistEffects (ev.step { core := s.core }).effects).2 := by
  simp only [executeEvent, execute]
  repeat' split
  all_goals rfl

/-- The effects of a handler never touch the published snapshot. -/
theorem PersistEngine.persistEffects_snapshot (p : PersistEngine) (effects : RaftEffects) :
    (p.persistEffects effects).2.snapshot = p.snapshot := by
  simp only [persistEffects]
  repeat' split
  all_goals rfl

theorem ReplicaState.executeEvent_snapshot (s : ReplicaState) (e : CoreEvent) :
    (s.executeEvent e).2.1.persist.snapshot = s.persist.snapshot := by
  rw [executeEvent_persist, PersistEngine.persistEffects_snapshot]

theorem ReplicaState.prepareInstallSnapshot_eq (s : ReplicaState) (param : InstallSnapshotParam) :
    (s.prepareInstallSnapshot param).2.2 = (s.executeEvent (.prepareInstallSnapshot param)).2.1 := rfl

variable {s : ReplicaState} {param : InstallSnapshotParam} {received : SnapshotData}

/-- A transfer the executor lets through is one the core lets through. -/
theorem ReplicaState.prepareInstallSnapshot_ok (hok : (s.prepareInstallSnapshot param).1.fail = false) :
    (CoreState.prepareInstallSnapshot { core := s.core } param).1.fail = false := by
  by_contra hf
  simp only [prepareInstallSnapshot, execute] at hok
  split at hok
  · next hp => rw [hp] at hok; cases hok
  · rw [if_pos (by simpa using hf)] at hok
    exact hf hok

/-- A transfer that is let through announces an index above the commit index. -/
theorem ReplicaState.prepareInstallSnapshot_wanted (hok : (s.prepareInstallSnapshot param).1.fail = false)
    (hw : (s.prepareInstallSnapshot param).2.1 < param.snapshotIndex) :
    s.core.raftApply.commitIndex < param.snapshotIndex :=
  ((CoreState.prepareInstallSnapshot_ok (prepareInstallSnapshot_ok hok)).2.2.2 hw).1

/-- A transfer that is let through makes the replica follow its sender. -/
theorem ReplicaState.prepareInstallSnapshot_role (hok : (s.prepareInstallSnapshot param).1.fail = false) :
    (s.prepareInstallSnapshot param).2.2.core.election.role = .follower := by
  obtain ⟨heq, -, hterm, -⟩ := CoreState.prepareInstallSnapshot_ok (prepareInstallSnapshot_ok hok)
  rw [prepareInstallSnapshot_eq, executeEvent_core]
  show (CoreState.prepareInstallSnapshot { core := s.core } param).2.2.core.election.role = _
  rw [heq]
  exact (CoreState.followLeader_election hterm).2

/-- A snapshot installed whole: published, restored and handed to the core. -/
theorem ReplicaState.finishInstallSnapshot_of_restore {sm : KvStateMachine}
    (h : KvStateMachine.restore received = .ok sm) :
    (s.finishInstallSnapshot received).2 =
      ({ s with
          persist := { s.persist with snapshot := some received }
          stateMachine := sm }.executeEvent (.installSnapshot received.header)).2.1 := by
  simp only [finishInstallSnapshot, h]
  rfl

/-- A snapshot that cannot be restored has been published all the same. -/
theorem ReplicaState.finishInstallSnapshot_of_error {st : Status}
    (h : KvStateMachine.restore received = .error st) :
    s.finishInstallSnapshot received =
      (st, { s with persist := { s.persist with snapshot := some received } }) := by
  simp only [finishInstallSnapshot, h]

namespace ReplicaLoop

/-! ## Handlers -/

/-- The core handler an event of the queue runs. A batch of proposals hands on only those that are
new. -/
inductive Runs : LoopEvent → CoreEvent → Prop
  | tick : Runs .tick .tick
  | propose {params fresh : List ProposeParam} (sub : fresh ⊆ params)
    (writes : ∀ p ∈ fresh, ∃ w, p = .write w ∧ w.requestId ≠ []) :
    Runs (.propose params) (.proposeBatch fresh)
  | addMember {member : PeerMember} : Runs (.addMember member) (.addLearner member)
  | removeMember {id : ReplicaID} : Runs (.removeMember id) (.removeMember id)
  | requestVote {param : RequestVoteParam} : Runs (.requestVote param) (.requestVote param)
  | appendEntries {param : AppendEntriesParam} : Runs (.appendEntries param) (.appendEntries param)
  | voteResponse {sender : ReplicaID} {result : RequestVoteResult} :
    Runs (.voteResponse sender result) (.voteResponse sender result)
  | preVoteResponse {sender : ReplicaID} {result : PreVoteResult} :
    Runs (.preVoteResponse sender result) (.preVoteResponse sender result)
  | appendResponse {sender : ReplicaID} {sent : AppendEntriesParam} {result : AppendEntriesResult} :
    Runs (.appendResponse sender sent result) (.appendResponse sender sent result)
  | snapshotResponse {sender : ReplicaID} {sent : InstallSnapshotParam}
    {result : InstallSnapshotResult} :
    Runs (.snapshotResponse sender sent result) (.snapshotResponse sender sent result)
  | snapshotSendFailed {sender : ReplicaID} {sent : InstallSnapshotParam} :
    Runs (.snapshotSendFailed sender sent) (.snapshotSendFailed sender sent)
  | prepare {param : InstallSnapshotParam} :
    Runs (.installSnapshot param) (.prepareInstallSnapshot param)

/-- The received file once the chunk has been written to it. -/
def receivedFile (l : ReplicaLoop) (param : InstallSnapshotParam) : Bytes :=
  (if param.offset = 0 then [] else l.receivingFiles param.snapshotIndex) ++ param.data

/-- The last chunk of a wanted transfer, whose file holds `received`. -/
structure Receives (codec : SnapshotCodec) (l : ReplicaLoop) (param : InstallSnapshotParam)
    (received : SnapshotData) : Prop where
  ok : (l.state.prepareInstallSnapshot param).1.fail = false
  wanted : (l.state.prepareInstallSnapshot param).2.1 < param.snapshotIndex
  done : param.done = true
  session : param.offset = 0 ∨ ∃ s, l.receiving = some s ∧ s.fromReplicaId = param.fromReplicaId ∧
    s.term = param.term ∧ s.snapshotIndex = param.snapshotIndex ∧ s.nextOffset = param.offset
  length : param.offset = 0 ∨ (l.receivingFiles param.snapshotIndex).length = param.offset
  decoded : codec.decode (l.receivedFile param) = .ok received

/-- What the handler of an event does to the replica. -/
inductive Change (codec : SnapshotCodec) (l : ReplicaLoop) : LoopEvent → ReplicaState → Prop
  | idle {ev : LoopEvent} : Change codec l ev l.state
  | runs {ev : LoopEvent} {e : CoreEvent} (h : Runs ev e) : Change codec l ev (l.state.executeEvent e).2.1
  | received {param : InstallSnapshotParam} {received : SnapshotData} {sm : KvStateMachine}
    (h : Receives codec l param received) (restored : KvStateMachine.restore received = .ok sm) :
    Change codec l (.installSnapshot param)
      ((l.state.prepareInstallSnapshot param).2.2.finishInstallSnapshot received).2
  | stale {candidate : SnapshotData} {rest : List SnapshotData} (queued : l.written = candidate :: rest)
    (covered : candidate.header.applyIndex ≤ l.state.core.snapshotIndex) :
    Change codec l .snapshotDone
      { l.state with persist := l.state.persist.publishLocalSnapshot candidate }
  | captured {candidate : SnapshotData} {rest : List SnapshotData}
    (queued : l.written = candidate :: rest)
    (newer : l.state.core.snapshotIndex < candidate.header.applyIndex) :
    Change codec l .snapshotDone
      ({ l.state with persist := l.state.persist.publishLocalSnapshot candidate }.executeEvent
        (.installSnapshot { applyIndex := candidate.header.applyIndex
                            applyTerm := candidate.header.applyTerm })).2.1
  /-- The file verifies and is published, but the state machine refuses it: the loop faults. -/
  | unrestorable {param : InstallSnapshotParam} {received : SnapshotData} {st : Status}
    (h : Receives codec l param received) (refused : KvStateMachine.restore received = .error st) :
    Change codec l (.installSnapshot param)
      ((l.state.prepareInstallSnapshot param).2.2.finishInstallSnapshot received).2

variable {codec : SnapshotCodec} {l : ReplicaLoop}

/-- A call of a batch is proposed only if it is a write with a request id. -/
theorem submitOne_params (core : RaftCore) (sm : KvStateMachine) (st : ProposalTracker.Submission)
    (call : ProposeCall) :
    (ProposalTracker.submitOne core sm st call).params = st.params ∨
      ((ProposalTracker.submitOne core sm st call).params = st.params ++ [call.param] ∧
        ∃ w, call.param = .write w ∧ w.requestId ≠ []) := by
  obtain ⟨param, id⟩ := call
  cases param with
  | noop => exact Or.inl rfl
  | configChange c => exact Or.inl rfl
  | write w =>
    simp only [ProposalTracker.submitOne]
    split
    · exact Or.inl rfl
    next hid =>
    split
    · exact Or.inl rfl
    split
    · split
      · exact Or.inl rfl
      · split <;> exact Or.inl rfl
    · split
      · split
        · exact Or.inl rfl
        · split <;> exact Or.inl rfl
      · exact Or.inr ⟨rfl, w, rfl, hid⟩

/-- Over a whole batch. -/
theorem submit_params (core : RaftCore) (sm : KvStateMachine) (calls : List ProposeCall)
    (st : ProposalTracker.Submission) {p : ProposeParam}
    (hp : p ∈ (calls.foldl (ProposalTracker.submitOne core sm) st).params) :
    p ∈ st.params ∨ (p ∈ calls.map ProposeCall.param ∧ ∃ w, p = .write w ∧ w.requestId ≠ []) := by
  induction calls generalizing st with
  | nil => exact Or.inl hp
  | cons call calls ih =>
    rcases ih _ hp with h | ⟨h, hw⟩
    · rcases submitOne_params core sm st call with heq | ⟨heq, hw⟩
      · exact Or.inl (heq ▸ h)
      · rw [heq] at h
        rcases List.mem_append.mp h with h | h
        · exact Or.inl h
        · cases List.mem_singleton.mp h
          exact Or.inr ⟨List.mem_cons_self, hw⟩
    · exact Or.inr ⟨List.mem_cons_of_mem _ h, hw⟩

/-- What is left of a batch are writes with a request id. -/
theorem runs_propose (core : RaftCore) (sm : KvStateMachine) (params : List ProposeParam)
    (calls : List ProposeCall) (hcalls : calls.map ProposeCall.param = params)
    (st : ProposalTracker.Submission) (hst : st.params = []) :
    Runs (.propose params)
      (.proposeBatch (calls.foldl (ProposalTracker.submitOne core sm) st).params) := by
  refine .propose (fun p hp => ?_) fun p hp => ?_
  · rcases submit_params _ _ _ _ hp with h | ⟨h, -⟩
    · rw [hst] at h
      cases h
    · rwa [hcalls] at h
  · rcases submit_params _ _ _ _ hp with h | ⟨-, hw⟩
    · rw [hst] at h
      cases h
    · exact hw

theorem batch_params (params : List ProposeParam) (first : Nat) :
    (params.zipIdx.map fun p => (⟨p.1, first + p.2⟩ : ProposeCall)).map ProposeCall.param = params := by
  rw [List.map_map]
  exact List.zipIdx_map_fst 0 params

/-- A batch none of whose calls is left runs no handler. -/
theorem submitBatch_change (params : List ProposeParam) :
    Change codec l (.propose params) (l.submitBatch params).loop.state := by
  simp only [submitBatch]
  split
  · exact .idle
  · exact .runs (runs_propose _ _ _ _ (batch_params params l.nextCompletion) _ rfl)

variable {param : InstallSnapshotParam}

/-- The session a chunk belongs to, when `offset` bytes have been received. -/
def sessionOf (param : InstallSnapshotParam) (offset : Nat) : ReceivingSnapshot :=
  ⟨param.fromReplicaId, param.term, param.snapshotIndex, offset⟩

/-- A later chunk is accepted only where the session goes on. -/
theorem checkReceivingSession_ok {session : Option ReceivingSnapshot} {s : ReceivingSnapshot}
    (h : checkReceivingSession session param = .ok s) :
    session = some s ∧ s = sessionOf param param.offset := by
  unfold checkReceivingSession at h
  split at h
  · cases h
  split at h
  · cases h
  next hsame =>
  split at h
  · cases h
  next hoffset =>
  cases h
  simp only [not_or, not_not] at hsame hoffset
  refine ⟨rfl, ?_⟩
  rw [sessionOf, ← hsame.1, ← hsame.2.1, ← hsame.2.2, ← hoffset]

theorem checkReceivingSession_error {session : Option ReceivingSnapshot} {st : Status}
    (h : checkReceivingSession session param = .error st) : st.fail = true := by
  unfold checkReceivingSession at h
  repeat' split at h
  all_goals first | (cases h; rfl) | cases h

/-- A file is received in the session of its last chunk. -/
theorem Receives.session_eq {received : SnapshotData} (h : Receives codec l param received) :
    param.offset = 0 ∨ l.receiving = some (sessionOf param param.offset) := by
  -- every field of the session is fixed by the chunk
  refine h.session.imp_right ?_
  rintro ⟨⟨sender, term, index, offset⟩, hs, rfl, rfl, rfl, rfl⟩
  exact hs

/-- What a chunk does: it is refused, not needed, stored, or the last one of a file, which then is unreadable or
a snapshot. The status and the loop. -/
inductive ChunkStep (codec : SnapshotCodec) (l : ReplicaLoop) (param : InstallSnapshotParam) :
    Status → ReplicaLoop → Prop
  | refused {st : Status} {faulted : Bool} (failed : st.fail = true) :
    ChunkStep codec l param st { l with state := (l.state.prepareInstallSnapshot param).2.2, faulted }
  | covered (ok : (l.state.prepareInstallSnapshot param).1.fail = false)
    (covered : param.snapshotIndex ≤ (l.state.prepareInstallSnapshot param).2.1) :
    ChunkStep codec l param .OK
      { l with state := (l.state.prepareInstallSnapshot param).2.2, receiving := none }
  | part (session : param.offset = 0 ∨ l.receiving = some (sessionOf param param.offset))
    (more : param.done = false) :
    ChunkStep codec l param .OK { l with
      state := (l.state.prepareInstallSnapshot param).2.2
      receiving := some (sessionOf param (param.offset + param.data.length))
      receivingFiles := Function.update l.receivingFiles param.snapshotIndex (l.receivedFile param) }
  | unreadable {st : Status} {receivingFiles : Nat → Bytes} : ChunkStep codec l param st { l with
      state := (l.state.prepareInstallSnapshot param).2.2
      receiving := none
      receivingFiles
      faulted := true }
  | installed {received : SnapshotData} {st : Status} {receivingFiles : Nat → Bytes} {faulted : Bool}
    (h : Receives codec l param received) : ChunkStep codec l param st { l with
      state := ((l.state.prepareInstallSnapshot param).2.2.finishInstallSnapshot received).2
      receiving := none
      receivingFiles
      faulted }

/-- A chunk that is appended to the session it belongs to. -/
theorem appendSnapshotChunk_step (hok : (l.state.prepareInstallSnapshot param).1.fail = false)
    (hwanted : (l.state.prepareInstallSnapshot param).2.1 < param.snapshotIndex)
    (hsession : param.offset = 0 ∨ l.receiving = some (sessionOf param param.offset))
    {r : Status × ReplicaLoop}
    (hr : (({ l with state := (l.state.prepareInstallSnapshot param).2.2 } :
      ReplicaLoop).appendSnapshotChunk codec (sessionOf param param.offset) param) = r) :
    ChunkStep codec l param r.1 r.2 := by
  subst hr
  simp only [appendSnapshotChunk]
  by_cases hlength : (if param.offset = 0 then []
      else l.receivingFiles param.snapshotIndex).length ≠ param.offset
  · -- a first chunk starts the file, so this is one of a session that is known
    rw [if_pos hlength]
    rcases hsession with h0 | hsome
    · rw [if_pos h0, h0] at hlength
      exact absurd rfl hlength
    · rw [← hsome]
      exact .refused rfl
  rw [if_neg hlength]
  by_cases hdone : (!param.done) = true
  · rw [if_pos hdone]
    exact .part hsession (by simpa using hdone)
  rw [if_neg hdone]
  simp only [finishInstallSnapshot, Function.update_self]
  split
  · exact .unreadable
  next received hdecode =>
  refine .installed ⟨hok, hwanted, by simpa using hdone,
    hsession.imp_right fun hs => ⟨_, hs, rfl, rfl, rfl, rfl⟩, ?_, hdecode⟩
  by_cases h0 : param.offset = 0
  · exact Or.inl h0
  · rw [if_neg h0, not_not] at hlength
    exact Or.inr hlength

/-- **Chunks.** -/
theorem onInstallSnapshotChunk_step (codec : SnapshotCodec) (l : ReplicaLoop) (param : InstallSnapshotParam) :
    ChunkStep codec l param (l.onInstallSnapshotChunk codec param).1
      (l.onInstallSnapshotChunk codec param).2 := by
  simp only [onInstallSnapshotChunk]
  split
  · next hfail => exact .refused hfail
  next hok =>
  have hok' : (l.state.prepareInstallSnapshot param).1.fail = false := by simpa using hok
  split
  · next hcovered => exact .covered hok' hcovered
  next hwanted =>
  have hwanted' := Nat.lt_of_not_le hwanted
  split
  · -- a first chunk opens its own session
    next h0 => exact appendSnapshotChunk_step hok' hwanted' (Or.inl h0) (by rw [h0]; rfl)
  split
  · next hrefused => exact .refused (checkReceivingSession_error hrefused)
  · next hs =>
    obtain ⟨hsome, rfl⟩ := checkReceivingSession_ok hs
    exact appendSnapshotChunk_step hok' hwanted' (Or.inr hsome) rfl

/-- A chunk prepares the core first, whatever comes of it. -/
theorem ChunkStep.change {st : Status} {l' : ReplicaLoop} (h : ChunkStep codec l param st l') :
    Change codec l (.installSnapshot param) l'.state := by
  have hprepared : Change codec l (.installSnapshot param)
      (l.state.prepareInstallSnapshot param).2.2 := by
    rw [ReplicaState.prepareInstallSnapshot_eq]
    exact .runs .prepare
  cases h with
  | @installed received _ _ _ h =>
    rcases hrestore : KvStateMachine.restore received with st | sm
    · exact .unrestorable h hrestore
    · exact .received h hrestore
  | _ => exact hprepared

/-- **Handlers.** -/
theorem handle_change (codec : SnapshotCodec) (l : ReplicaLoop) (ev : LoopEvent) :
    Change codec l ev (l.handle codec ev).loop.state := by
  cases ev with
  | tick => exact .runs .tick
  | propose params => exact submitBatch_change params
  | submitRead key => exact .idle
  | addMember member => exact .runs .addMember
  | removeMember id => exact .runs .removeMember
  | requestVote param => exact .runs .requestVote
  | preVote param => exact .idle
  | appendEntries param => exact .runs .appendEntries
  | installSnapshot param => exact (onInstallSnapshotChunk_step codec l param).change
  | voteResponse sender result => exact .runs .voteResponse
  | preVoteResponse sender result => exact .runs .preVoteResponse
  | appendResponse sender sent result => exact .runs .appendResponse
  | readQuorumResponse sender readSeq responseTerm => exact .idle
  | snapshotResponse sender sent result => exact .runs .snapshotResponse
  | snapshotSendFailed sender sent => exact .runs .snapshotSendFailed
  -- only a capture ahead of the log's snapshot is installed
  | snapshotDone =>
    simp only [handle]
    split
    · exact .idle
    · next candidate rest hqueue =>
      simp only [onSnapshotDone]
      split
      · next hle => exact .stale hqueue hle
      · next hgt => exact .captured hqueue (Nat.lt_of_not_le hgt)

/-! ## Iterations -/

/-- What the end of a dispatch does to the replica: nothing, or the apply loop. -/
def Applies (s s' : ReplicaState) : Prop :=
  s' = s ∨ ∃ status a,
    ApplyState.applyCommittedEntriesInline { core := s.core, stateMachine := s.stateMachine } =
      some (status, a) ∧ s' = { s with core := a.core, stateMachine := a.stateMachine }

/-- Applying leaves the log, the election and the files alone. -/
theorem Applies.frame {s s' : ReplicaState} (h : Applies s s') :
    ApplyFrame s.core s'.core ∧ s'.persist = s.persist := by
  rcases h with rfl | ⟨status, a, happly, rfl⟩
  · exact ⟨.refl _, rfl⟩
  · exact ⟨ApplyMove.frame_star (ApplyState.applyCommittedEntriesInline_moves happly), rfl⟩

/-- A faulted loop does not apply. -/
theorem finishDispatch_applies (l : ReplicaLoop) (status : Status) :
    Applies l.state (l.finishDispatch status).2.state := by
  unfold finishDispatch
  split
  · exact Or.inl rfl
  split
  · exact Or.inl rfl
  · next applied a happly => exact Or.inr ⟨applied, a, happly, rfl⟩

@[simp] theorem advanceSnapshot_state (l : ReplicaLoop) : l.advanceSnapshot.state = l.state := by
  simp only [advanceSnapshot]
  repeat' split
  all_goals rfl

@[simp] theorem endIteration_state (l : ReplicaLoop) : l.endIteration.state = l.state := by
  unfold endIteration
  split
  · rfl
  · simp [advanceTrackers]

@[simp] theorem answerRead_state (ev : LoopEvent) (id : Nat) (status : Status) (l : ReplicaLoop) :
    (answerRead ev id status l).state = l.state := by
  unfold answerRead
  repeat' split
  all_goals rfl

/-- **Iterations.** -/
theorem iterate_change (codec : SnapshotCodec) (l : ReplicaLoop) (ev : LoopEvent) :
    ∃ s, Change codec l ev s ∧ Applies s (l.iterate codec ev).loop.state := by
  simp only [iterate]
  split
  · exact ⟨l.state, .idle, Or.inl rfl⟩
  · refine ⟨_, handle_change codec l ev, ?_⟩
    rw [endIteration_state, answerRead_state]
    exact finishDispatch_applies _ _

/-! ## The snapshot worker's queue -/

/-- What an event leaves of the queue of done events. -/
def queueAfter {α : Type} : LoopEvent → List α → List α
  | .snapshotDone, queue => queue.tail
  | _, queue => queue

/-- Handling takes done events out of the queue. -/
theorem queueAfter_subset {α : Type} (ev : LoopEvent) (queue : List α) :
    queueAfter ev queue ⊆ queue := by
  cases ev with
  | snapshotDone => exact List.tail_subset queue
  | _ => exact List.Subset.refl queue

/-- A handler queues nothing for the worker; it can only take a done event out of the queue. -/
theorem handle_worker (codec : SnapshotCodec) (l : ReplicaLoop) (ev : LoopEvent) :
    (l.handle codec ev).loop.writing = l.writing ∧
      (l.handle codec ev).loop.written = queueAfter ev l.written := by
  have hchunk : ∀ {param st} {l' : ReplicaLoop}, ChunkStep codec l param st l' →
      l'.writing = l.writing ∧ l'.written = l.written := by
    intro param st l' h
    cases h <;> exact ⟨rfl, rfl⟩
  cases ev with
  | propose params =>
    simp only [handle, submitBatch]
    split <;> exact ⟨rfl, rfl⟩
  | installSnapshot param => exact hchunk (onInstallSnapshotChunk_step codec l param)
  | snapshotDone =>
    simp only [handle, queueAfter]
    split
    · next hqueue => exact ⟨rfl, by rw [hqueue]; rfl⟩
    · next candidate rest hqueue =>
      rw [hqueue]
      simp only [onSnapshotDone]
      split <;> exact ⟨rfl, rfl⟩
  | _ => exact ⟨rfl, rfl⟩

/-- What an iteration leaves of a transfer: nothing, what was there, or the file with one more chunk. -/
inductive Receiving (l : ReplicaLoop) : LoopEvent → Option ReceivingSnapshot → (Nat → Bytes) → Prop
  | none {ev : LoopEvent} {files : Nat → Bytes} : Receiving l ev none files
  | same {ev : LoopEvent} : Receiving l ev l.receiving l.receivingFiles
  | chunk {param : InstallSnapshotParam}
    (session : param.offset = 0 ∨ l.receiving = some (sessionOf param param.offset)) :
    Receiving l (.installSnapshot param) (some (sessionOf param (param.offset + param.data.length)))
      (Function.update l.receivingFiles param.snapshotIndex (l.receivedFile param))

/-- A refused chunk leaves the transfer, and a last one ends it. -/
theorem ChunkStep.receiving {st : Status} {l' : ReplicaLoop} (h : ChunkStep codec l param st l') :
    Receiving l (.installSnapshot param) l'.receiving l'.receivingFiles := by
  cases h with
  | refused failed => exact .same
  | part session more => exact .chunk session
  | _ => exact .none

/-- No other event concerns a transfer. -/
theorem handle_receiving (codec : SnapshotCodec) (l : ReplicaLoop) (ev : LoopEvent) :
    Receiving l ev (l.handle codec ev).loop.receiving (l.handle codec ev).loop.receivingFiles := by
  cases ev with
  | propose params =>
    simp only [handle, submitBatch]
    split <;> exact .same
  | installSnapshot param => exact (onInstallSnapshotChunk_step codec l param).receiving
  | snapshotDone =>
    simp only [handle]
    split
    · exact .same
    · simp only [onSnapshotDone]
      split <;> exact .same
  | _ => exact .same

/-- The worker and the transfer under way are as before. -/
structure SameSnapshots (l l' : ReplicaLoop) : Prop where
  writing : l'.writing = l.writing
  written : l'.written = l.written
  receiving : l'.receiving = l.receiving
  receivingFiles : l'.receivingFiles = l.receivingFiles

/-- Applying and answering concern neither. -/
theorem answered_sameSnapshots (ev : LoopEvent) (id : Nat) (status st : Status) (l : ReplicaLoop) :
    SameSnapshots l (answerRead ev id st (l.finishDispatch status).2) := by
  have hanswer : ∀ l : ReplicaLoop, SameSnapshots l (answerRead ev id st l) := by
    intro l
    unfold answerRead
    repeat' split
    all_goals exact ⟨rfl, rfl, rfl, rfl⟩
  obtain ⟨h₁, h₂, h₃, h₄⟩ := hanswer (l.finishDispatch status).2
  refine ⟨h₁.trans ?_, h₂.trans ?_, h₃.trans ?_, h₄.trans ?_⟩ <;>
  · unfold finishDispatch
    repeat' split
    all_goals rfl

/-- Only the end of an iteration hands an idle worker something: the state as it is then. -/
theorem endIteration_snapshots (l : ReplicaLoop) :
    (l.endIteration.writing = l.writing ∨
        (l.writing = none ∧ l.endIteration.writing = some (captured l.state))) ∧
      l.endIteration.written = l.written ∧ l.endIteration.receiving = l.receiving ∧
      l.endIteration.receivingFiles = l.receivingFiles := by
  unfold endIteration
  split
  · exact ⟨Or.inl rfl, rfl, rfl, rfl⟩
  · simp only [advanceTrackers, advanceSnapshot]
    split
    · exact ⟨Or.inl rfl, rfl, rfl, rfl⟩
    split
    · exact ⟨Or.inl rfl, rfl, rfl, rfl⟩
    · -- a capture is due and the worker is free
      next hidle =>
      exact ⟨Or.inr ⟨Option.not_isSome_iff_eq_none.mp hidle, rfl⟩, rfl, rfl, rfl⟩

/-- **The worker**, over one iteration. -/
theorem iterate_worker (codec : SnapshotCodec) {l : ReplicaLoop} (hl : l.faulted = false)
    (ev : LoopEvent) :
    ((l.iterate codec ev).loop.writing = l.writing ∨
        (l.writing = none ∧
          (l.iterate codec ev).loop.writing = some (captured (l.iterate codec ev).loop.state))) ∧
      (l.iterate codec ev).loop.written = queueAfter ev l.written := by
  simp only [iterate, hl, Bool.false_eq_true, if_false]
  obtain ⟨hwriting, hwritten⟩ := handle_worker codec l ev
  set h := l.handle codec ev
  have hsame := answered_sameSnapshots ev l.nextCompletion h.status (h.loop.finishDispatch h.status).1 h.loop
  obtain ⟨hend, hend', -, -⟩ := endIteration_snapshots (answerRead ev l.nextCompletion
    (h.loop.finishDispatch h.status).1 (h.loop.finishDispatch h.status).2)
  rw [hsame.writing, hwriting] at hend
  rw [hsame.written, hwritten] at hend'
  exact ⟨by rwa [endIteration_state], hend'⟩

/-- **The transfer under way**, over one iteration. -/
theorem iterate_receiving (codec : SnapshotCodec) (l : ReplicaLoop) (ev : LoopEvent) :
    Receiving l ev (l.iterate codec ev).loop.receiving (l.iterate codec ev).loop.receivingFiles := by
  simp only [iterate]
  split
  · exact .same
  · obtain ⟨-, -, hend, hend'⟩ := endIteration_snapshots (answerRead ev l.nextCompletion
      ((l.handle codec ev).loop.finishDispatch (l.handle codec ev).status).1
      ((l.handle codec ev).loop.finishDispatch (l.handle codec ev).status).2)
    have hsame := answered_sameSnapshots ev l.nextCompletion (l.handle codec ev).status
      ((l.handle codec ev).loop.finishDispatch (l.handle codec ev).status).1 (l.handle codec ev).loop
    rw [hend, hend', hsame.receiving, hsame.receivingFiles]
    exact handle_receiving codec l ev

/-- Nothing happens to a faulted loop. -/
theorem iterate_of_faulted (codec : SnapshotCodec) {l : ReplicaLoop} (hl : l.faulted = true)
    (ev : LoopEvent) : (l.iterate codec ev).loop = l := by
  simp [iterate, hl]

/-- A step of the worker's own thread: the queue then holds what it held, or what the worker was busy with. -/
structure WorkerStep (l l' : ReplicaLoop) : Prop where
  same : l' = { l with writing := l'.writing, posted := l'.posted, written := l'.written }
  held : ∀ d, d ∈ l'.writing ∨ d ∈ l'.written → d ∈ l.writing ∨ d ∈ l.written

theorem WorkerStep.state {l' : ReplicaLoop} (h : WorkerStep l l') : l'.state = l.state := by
  rw [h.same]

theorem workerPost_step (l : ReplicaLoop) : WorkerStep l l.workerPost := by
  unfold workerPost
  split
  · next d hwriting _ =>
    refine ⟨rfl, fun x hx => ?_⟩
    rcases hx with hx | hx
    · exact .inl hx
    rcases List.mem_append.mp hx with hold | hnew
    · exact .inr hold
    · rw [List.mem_singleton.mp hnew]
      exact .inl hwriting
  · exact ⟨rfl, fun _ hx => hx⟩

theorem workerClear_step (l : ReplicaLoop) : WorkerStep l l.workerClear := by
  unfold workerClear
  split
  · exact ⟨rfl, fun _ hx => .inr (hx.resolve_left (by simp))⟩
  · exact ⟨rfl, fun _ hx => hx⟩

/-! ## Trackers -/

/-- Neither tracker nor any completion has changed. -/
structure SameTrackers (l l' : ReplicaLoop) : Prop where
  proposals : l'.proposals = l.proposals
  reads : l'.reads = l.reads
  completions : l'.completions = l.completions
  nextCompletion : l'.nextCompletion = l.nextCompletion
  submitted : l'.submitted = l.submitted

theorem SameTrackers.refl (l : ReplicaLoop) : SameTrackers l l := ⟨rfl, rfl, rfl, rfl, rfl⟩

/-- The events whose handler goes to a tracker. -/
def ForTrackers : LoopEvent → Prop
  | .propose _ | .submitRead _ | .readQuorumResponse _ _ _ => True
  | _ => False

/-- Only proposals and reads reach the trackers before the end of an iteration. -/
theorem handle_sameTrackers (codec : SnapshotCodec) (l : ReplicaLoop) {ev : LoopEvent}
    (hev : ¬ ForTrackers ev) : SameTrackers l (l.handle codec ev).loop := by
  have hchunk : ∀ {param st} {l' : ReplicaLoop}, ChunkStep codec l param st l' → SameTrackers l l' := by
    intro param st l' h
    cases h <;> exact ⟨rfl, rfl, rfl, rfl, rfl⟩
  cases ev with
  | propose params => exact absurd trivial hev
  | submitRead key => exact absurd trivial hev
  | readQuorumResponse sender readSeq responseTerm => exact absurd trivial hev
  | installSnapshot param => exact hchunk (onInstallSnapshotChunk_step codec l param)
  | snapshotDone =>
    simp only [handle]
    split
    · exact .refl l
    · simp only [onSnapshotDone]
      split <;> exact ⟨rfl, rfl, rfl, rfl, rfl⟩
  | _ => exact ⟨rfl, rfl, rfl, rfl, rfl⟩

end ReplicaLoop

end AdvisKV
