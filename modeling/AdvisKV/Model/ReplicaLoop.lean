import AdvisKV.Model.Trackers
import AdvisKV.Raft.Steps

/-!
# AdvisKV — the replica loop

`ReplicaLoop`: one thread owns the core, the state machine, the files and the trackers of a replica. It
takes one event at a time, runs its handler through the effect executor, applies what has become
committed, and then lets the trackers answer their callers. A replica that reports a fault leaves the
loop for good.

A snapshot travels as bytes. Its file format is a parameter: any encoding that its own decoder reads
back.
-/

namespace AdvisKV

/-! ## Snapshot files -/

/-- The file format of `write_snapshot_to_file` and `SnapshotFileReader`. -/
structure SnapshotCodec where
  encode : SnapshotData → Bytes
  decode : Bytes → Except Status SnapshotData
  decode_encode : ∀ d, decode (encode d) = .ok d

/-- The index of the published snapshot, 0 without one. -/
def PersistEngine.publishedIndex (p : PersistEngine) : Nat :=
  match p.snapshot with
  | some d => d.header.applyIndex
  | none => 0

/-- `SnapshotStore::publish_local_snapshot` with a candidate file that is complete: a candidate that
is not newer than the published snapshot is removed. -/
def PersistEngine.publishLocalSnapshot (p : PersistEngine) (candidate : SnapshotData) : PersistEngine :=
  if candidate.header.applyIndex ≤ p.publishedIndex then p
  else { p with snapshot := some candidate }

/-- `SnapshotTracker::ReceivingSnapshot`. -/
structure ReceivingSnapshot where
  fromReplicaId : ReplicaID
  term : Nat
  snapshotIndex : Nat
  nextOffset : Nat
deriving DecidableEq, Repr

/-- `check_receiving_session`, on success the session. -/
def checkReceivingSession (session : Option ReceivingSnapshot) (param : InstallSnapshotParam) :
    Except Status ReceivingSnapshot :=
  match session with
  | none =>
    .error ⟨.error, "[SnapshotTracker] replica:" ++ param.toReplicaId.toText ++
      " received snapshot chunk without session, from:" ++ param.fromReplicaId.toText ++
      ", snapshot_index:" ++ toString param.snapshotIndex ++ ", snapshot_term:" ++
      toString param.snapshotTerm ++ ", offset:" ++ toString param.offset⟩
  | some s =>
    if s.fromReplicaId ≠ param.fromReplicaId ∨ s.term ≠ param.term ∨
        s.snapshotIndex ≠ param.snapshotIndex then
      .error ⟨.error, "[SnapshotTracker] replica:" ++ param.toReplicaId.toText ++
        " received snapshot chunk from different session, chunk:[from:" ++
        param.fromReplicaId.toText ++ ", term:" ++ toString param.term ++ ", snapshot_index:" ++
        toString param.snapshotIndex ++ "], session:[from:" ++ s.fromReplicaId.toText ++ ", term:" ++
        toString s.term ++ ", snapshot_index:" ++ toString s.snapshotIndex ++ "]"⟩
    else if s.nextOffset ≠ param.offset then
      .error ⟨.error, "[SnapshotTracker] replica:" ++ param.toReplicaId.toText ++
        " received snapshot chunk with unexpected offset, from:" ++ param.fromReplicaId.toText ++
        ", snapshot_index:" ++ toString param.snapshotIndex ++ ", expected_offset:" ++
        toString s.nextOffset ++ ", actual_offset:" ++ toString param.offset⟩
    else .ok s

/-! ## Events -/

/-- What the queue of a replica loop holds. -/
inductive LoopEvent where
  | tick
  | propose (params : List ProposeParam)
  | submitRead (key : Key)
  | addMember (member : PeerMember)
  | removeMember (id : ReplicaID)
  | requestVote (param : RequestVoteParam)
  | preVote (param : PreVoteParam)
  | appendEntries (param : AppendEntriesParam)
  | installSnapshot (param : InstallSnapshotParam)
  | voteResponse (sender : ReplicaID) (result : RequestVoteResult)
  | preVoteResponse (sender : ReplicaID) (result : PreVoteResult)
  | appendResponse (sender : ReplicaID) (sent : AppendEntriesParam) (result : AppendEntriesResult)
  | readQuorumResponse (sender : ReplicaID) (readSeq responseTerm : Nat)
  | snapshotResponse (sender : ReplicaID) (sent : InstallSnapshotParam)
      (result : InstallSnapshotResult)
  | snapshotSendFailed (sender : ReplicaID) (sent : InstallSnapshotParam)
  | snapshotDone

/-- What a call hands back to its caller. -/
inductive LoopReply where
  | vote (result : RequestVoteResult)
  | preVote (result : PreVoteResult)
  | append (result : AppendEntriesResult)
  | snapshot (status : Status)
deriving DecidableEq, Repr

/-- The status a step of the core reports to the executor. -/
def CoreEvent.status : CoreEvent → CoreState → Status
  | .addLearner member, s => (s.ensureAddLearner member).1
  | .removeMember id, s => (s.ensureRemoveMember id).1
  | .appendResponse sender sent result, s => (s.handleAppendResponse sender sent result).1
  | .prepareInstallSnapshot param, s => (s.prepareInstallSnapshot param).1
  | _, _ => .OK

/-- Run the handler of a core event through the executor. -/
def ReplicaState.executeEvent (s : ReplicaState) (ev : CoreEvent) :
    Status × ReplicaState × List RaftMessage :=
  s.execute fun cs => (ev.status cs, ev.step cs)

/-! ## The loop -/

/-- The state of a replica process. `writing` is the snapshot the worker is busy with and `posted` says
that its done event is already queued; `written` are the done events not handled yet, with the candidate
each one names. `submitted` is bookkeeping: the proposal every completion was made for. -/
structure ReplicaLoop where
  state : ReplicaState
  proposals : ProposalTracker := {}
  reads : ReadTracker := {}
  receiving : Option ReceivingSnapshot := none
  receivingFiles : Nat → Bytes := fun _ => []
  snapshotLimit : Nat := 0
  writing : Option SnapshotData := none
  posted : Bool := false
  written : List SnapshotData := []
  completions : Completions := fun _ => .pending
  nextCompletion : Nat := 0
  submitted : List (Nat × ProposeParam) := []
  faulted : Bool := false

namespace ReplicaLoop

/-- The outcome of a handler. -/
structure Handled where
  status : Status := .OK
  messages : List RaftMessage := []
  reply : Option LoopReply := none
  loop : ReplicaLoop

def runCore (l : ReplicaLoop) (ev : CoreEvent) : Handled :=
  let r := l.state.executeEvent ev
  { status := r.1, messages := r.2.2, loop := { l with state := r.2.1 } }

/-! ## Proposals and reads -/

/-- `dispatch(QueuedCall<ProposeCall>)`: `submit_batch` and `propose_new`. -/
def submitBatch (l : ReplicaLoop) (params : List ProposeParam) : Handled :=
  let calls := params.zipIdx.map fun p => (⟨p.1, l.nextCompletion + p.2⟩ : ProposeCall)
  let l := { l with
    nextCompletion := l.nextCompletion + params.length
    submitted := l.submitted ++ calls.map fun (c : ProposeCall) => (c.completion, c.param) }
  let st := calls.foldl (ProposalTracker.submitOne l.state.core l.state.stateMachine)
    { entries := l.proposals.entries, completions := l.completions }
  -- every call has been answered or waits with an earlier one
  if st.params = [] then
    { loop := { l with proposals := ⟨st.entries⟩, completions := st.completions } }
  else
    -- the results and the effects are those of one run of the handler
    let results := (CoreState.proposeBatch { core := l.state.core } st.params).1
    let r := l.state.executeEvent (.proposeBatch st.params)
    let failure : Option Status :=
      if r.1.fail then some r.1
      else if results.length ≠ st.candidateIds.length then
        some ⟨.error, "proposal batch result size mismatch"⟩
      else none
    let tracking : ProposalTracker.Tracking := ⟨st.entries, st.completions⟩
    let settled := match failure with
      | some status => ProposalTracker.settleAll tracking
          (st.candidateIds.map fun id => (id, .error status))
      | none => ProposalTracker.settleAll tracking (st.candidateIds.zip results)
    { status := failure.getD .OK
      messages := r.2.2
      loop := { l with
        state := r.2.1
        proposals := ⟨settled.entries⟩
        completions := settled.completions } }

/-- `dispatch(QueuedCall<SubmitReadCall>)` up to `finish_dispatch`. -/
def submitRead (l : ReplicaLoop) (key : Key) : Handled :=
  let id := l.nextCompletion
  let l := { l with nextCompletion := id + 1 }
  let r := l.reads.establish l.state.core l.completions key id
  { status := r.1, messages := r.2.2, loop := { l with reads := r.2.1 } }

/-! ## Snapshots -/

/-- `finish_install_snapshot`: verify the received file, publish it, restore and install it. -/
def finishInstallSnapshot (codec : SnapshotCodec) (l : ReplicaLoop) (param : InstallSnapshotParam) :
    Status × ReplicaLoop :=
  match codec.decode (l.receivingFiles param.snapshotIndex) with
  -- a file that does not verify ends the loop
  | .error status => (status, { l with faulted := true })
  | .ok received =>
    let r := l.state.finishInstallSnapshot received
    (r.1, { l with
      state := r.2
      receivingFiles := Function.update l.receivingFiles param.snapshotIndex []
      faulted := r.1.fail })

/-- The part of `on_install_snapshot_chunk` after the session is known. -/
def appendSnapshotChunk (codec : SnapshotCodec) (l : ReplicaLoop) (session : ReceivingSnapshot)
    (param : InstallSnapshotParam) : Status × ReplicaLoop :=
  let l := { l with receiving := some session }
  -- the first chunk truncates what an earlier transfer left
  let file := if param.offset = 0 then [] else l.receivingFiles param.snapshotIndex
  if file.length ≠ param.offset then
    (⟨.error, "snapshot chunk offset mismatch"⟩, { l with faulted := true })
  else
    let l := { l with
      receivingFiles := Function.update l.receivingFiles param.snapshotIndex (file ++ param.data)
      receiving := some { session with nextOffset := param.offset + param.data.length } }
    if !param.done then (.OK, l)
    else
      let r := l.finishInstallSnapshot codec param
      (r.1, { r.2 with receiving := none })

/-- `on_install_snapshot_chunk`. -/
def onInstallSnapshotChunk (codec : SnapshotCodec) (l : ReplicaLoop) (param : InstallSnapshotParam) :
    Status × ReplicaLoop :=
  let prepared := l.state.prepareInstallSnapshot param
  let l := { l with state := prepared.2.2 }
  if prepared.1.fail then (prepared.1, l)
  -- the replica has all of it, and the session is over
  else if param.snapshotIndex ≤ prepared.2.1 then (.OK, { l with receiving := none })
  else if param.offset = 0 then
    l.appendSnapshotChunk codec ⟨param.fromReplicaId, param.term, param.snapshotIndex, 0⟩ param
  else match checkReceivingSession l.receiving param with
    -- a stray chunk does not end the session
    | .error status => (status, l)
    | .ok session => l.appendSnapshotChunk codec session param

/-- `on_snapshot_done`. The header installed after a local snapshot names no members. -/
def onSnapshotDone (l : ReplicaLoop) (candidate : SnapshotData) : Handled :=
  let published := { l.state with persist := l.state.persist.publishLocalSnapshot candidate }
  if candidate.header.applyIndex ≤ l.state.core.snapshotIndex then
    { loop := { l with state := published } }
  else
    { l with state := published }.runCore (.installSnapshot
      { applyIndex := candidate.header.applyIndex, applyTerm := candidate.header.applyTerm })

/-- What `SnapshotTracker::advance` hands to the worker: the state machine's contents with the members
the core has now. -/
def captured (s : ReplicaState) : SnapshotData :=
  let d := s.stateMachine.captureSnapshot
  { d with header := { d.header with members := s.core.membership.members } }

def advanceSnapshot (l : ReplicaLoop) : ReplicaLoop :=
  let c := l.state.core
  if c.lastApplied < c.snapshotIndex ∨ c.lastApplied - c.snapshotIndex < l.snapshotLimit then l
  -- one capture at a time
  else if l.writing.isSome then l
  else { l with writing := some (captured l.state), posted := false }

/-- The worker has written the whole candidate and queues its done event. -/
def workerPost (l : ReplicaLoop) : ReplicaLoop :=
  match l.writing, l.posted with
  | some d, false => { l with written := l.written ++ [d], posted := true }
  | _, _ => l

/-- The worker clears its busy flag. -/
def workerClear (l : ReplicaLoop) : ReplicaLoop :=
  if l.posted then { l with writing := none, posted := false } else l

/-! ## One iteration -/

/-- The handler of each event. -/
def handle (codec : SnapshotCodec) (l : ReplicaLoop) : LoopEvent → Handled
  | .tick => l.runCore .tick
  | .propose params => l.submitBatch params
  | .submitRead key => l.submitRead key
  | .addMember member => l.runCore (.addLearner member)
  | .removeMember id => l.runCore (.removeMember id)
  | .requestVote param =>
    { l.runCore (.requestVote param) with
      reply := some (.vote (CoreState.handleRequestVote { core := l.state.core } param).1) }
  | .preVote param =>
    { reply := some (.preVote (CoreState.handlePreVote l.state.core param)), loop := l }
  | .appendEntries param =>
    { l.runCore (.appendEntries param) with
      reply := some (.append (CoreState.handleAppendEntries { core := l.state.core } param).1) }
  | .installSnapshot param =>
    let r := l.onInstallSnapshotChunk codec param
    { status := r.1, reply := some (.snapshot r.1), loop := r.2 }
  | .voteResponse sender result => l.runCore (.voteResponse sender result)
  | .preVoteResponse sender result => l.runCore (.preVoteResponse sender result)
  | .appendResponse sender sent result => l.runCore (.appendResponse sender sent result)
  | .readQuorumResponse sender readSeq responseTerm =>
    { loop := { l with
        reads := l.reads.onReadQuorumResponse l.completions sender readSeq responseTerm } }
  | .snapshotResponse sender sent result => l.runCore (.snapshotResponse sender sent result)
  | .snapshotSendFailed sender sent => l.runCore (.snapshotSendFailed sender sent)
  | .snapshotDone =>
    match l.written with
    | [] => { loop := l }
    | candidate :: rest => { l with written := rest }.onSnapshotDone candidate

/-- `finish_dispatch`: apply what has become committed; a failed apply is a fault. -/
def finishDispatch (l : ReplicaLoop) (status : Status) : Status × ReplicaLoop :=
  if l.faulted then (if status.fail then status else ⟨.isFaulted, "replica is faulted"⟩, l)
  else match ApplyState.applyCommittedEntriesInline
      { core := l.state.core, stateMachine := l.state.stateMachine } with
    | none => (status, l)
    | some (applied, a) =>
      let l := { l with
        state := { l.state with core := a.core, stateMachine := a.stateMachine }
        faulted := applied.fail }
      (if status.fail then status else applied, l)

/-- `advance_trackers`. -/
def advanceTrackers (l : ReplicaLoop) : ReplicaLoop :=
  let t := ProposalTracker.advance l.state.core l.state.stateMachine
    ⟨l.proposals.entries, l.completions⟩
  let r := l.reads.advance l.state.core l.state.stateMachine t.completions
  { l with proposals := ⟨t.entries⟩, reads := r.1, completions := r.2 }.advanceSnapshot

/-- `fail_all_pending`, when the loop ends. -/
def failAllPending (l : ReplicaLoop) (status : Status) : ReplicaLoop :=
  let r := l.reads.failAll l.completions status
  let t := ProposalTracker.failAll ⟨l.proposals.entries, r.2⟩ status
  { l with reads := r.1, proposals := ⟨t.entries⟩, completions := t.completions }

/-- The end of an iteration: the trackers advance, or the faulted loop gives up. -/
def endIteration (l : ReplicaLoop) : ReplicaLoop :=
  if l.faulted then l.failAllPending ⟨.isFaulted, "replica is faulted"⟩ else l.advanceTrackers

/-- A read whose dispatch failed is answered with the failure; the other calls that wait inside the loop
have been answered by their tracker. -/
def answerRead (ev : LoopEvent) (id : Nat) (status : Status) (l : ReplicaLoop) : ReplicaLoop :=
  match ev with
  | .submitRead _ =>
    if status.fail then { l with completions := l.completions.resolve id status none } else l
  | _ => l

/-- The reply a caller gets: a call whose dispatch failed returns only the failure. -/
def replyOf (status : Status) : Option LoopReply → Option LoopReply
  | some (.snapshot _) => some (.snapshot status)
  | some r => if status.fail then none else some r
  | none => none

/-- One iteration of `run` on one event. -/
def iterate (codec : SnapshotCodec) (l : ReplicaLoop) (ev : LoopEvent) : Handled :=
  -- the loop has ended, and what is left in its queue is dropped
  if l.faulted then { loop := l }
  else
    let h := l.handle codec ev
    let finished := h.loop.finishDispatch h.status
    { status := finished.1
      messages := h.messages
      reply := replyOf finished.1 h.reply
      loop := (answerRead ev l.nextCompletion finished.1 finished.2).endIteration }

/-- `Replica::init` and `RecoverCall`: a new process on the files of an old one, or on none. -/
def boot (selfId : ReplicaID) (members : List PeerMember) (limits : Nat → Nat) (snapshotLimit : Nat)
    (disk : PersistEngine) : Except Status ReplicaLoop :=
  match recoverCall (RaftCore.create selfId members limits) disk with
  | .error status => .error status
  | .ok state =>
    let l : ReplicaLoop := { state, snapshotLimit }
    .ok (l.finishDispatch .OK).2.endIteration

end ReplicaLoop

end AdvisKV
