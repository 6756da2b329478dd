import AdvisKV.Model.AppendCall
import AdvisKV.Model.SampleCodec
import AdvisKV.Raft.CommitRule

/-!
# AdvisKV — an AppendEntries call the target refuses

A service that cannot hand a request to a running replica says so in `base_rsp` and leaves the three
result fields at their defaults. The transport reads only the result fields. What reaches the leader is
therefore the answer of a follower with an empty log, and a leader that takes it for an answer to its
last probe starts over behind the index it knows to match.

Main results:

* `appendEntries_refused` — a response with a failed `base_rsp` carries the default result.
* `refused_append_keeps_progress_iff` — when the leader's progress survives such a response.
-/

namespace AdvisKV

variable {codec : SnapshotCodec} {closing : Option Status} {param : AppendEntriesParam}

/-- A request that fails inside the replica returns no result. -/
theorem Replica.handleAppendEntries_fail {r : Replica}
    (h : (r.handleAppendEntries codec closing param).1.fail = true) :
    (r.handleAppendEntries codec closing param).2 = {} := by
  simp only [handleAppendEntries] at h ⊢
  split
  · rfl
  next hgate =>
  rw [if_neg hgate] at h
  split
  · rfl
  next hrunning =>
  rw [if_neg hrunning] at h
  split
  · rfl
  next hfaulted =>
  rw [if_neg hfaulted] at h
  cases closing with
  | some status => rfl
  | none =>
    dsimp only at h ⊢
    split
    · next hreply =>
      rw [hreply] at h
      cases h
    · rfl

/-- Whatever the reason, a failed call fills in nothing but `base_rsp`. -/
theorem StorageServiceImpl.appendEntries_refused {service : StorageServiceImpl}
    {request : AppendEntriesRequest} (h : (service.appendEntries codec closing request).baseRsp.fail = true) :
    service.appendEntries codec closing request =
      { baseRsp := (service.appendEntries codec closing request).baseRsp } := by
  unfold appendEntries at h ⊢
  split
  · rfl
  next getReplicaById _ =>
  split
  · rfl
  next replica _ =>
  split
  · rfl
  next entries hdecode =>
  simp_all only
  rw [Replica.handleAppendEntries_fail h]

/-- A rejection that names the last index 0 sends the leader back to the index it knows to match. -/
theorem RaftReplication.handlePeerAppendFailed_zero (r : RaftReplication) (id : ReplicaID) (last : Nat) :
    r.handlePeerAppendFailed id 0 last = r.updateNextIndex id (r.matchIndex id + 1) := by
  have hnext : ¬ (r.nextIndex id ≤ 1 ∧ 1 < r.nextIndex id) := by omega
  simp [handlePeerAppendFailed, hnext]

/-- The leader takes the answer to `param` for the answer to its last probe of `id`, and has probed
beyond the index it knows to match. -/
def RaftCore.Rewinds (c : RaftCore) (id : ReplicaID) (param : AppendEntriesParam) : Prop :=
  c.recovering = false ∧ c.isLeader = true ∧ param.term = c.currentTerm ∧ param.readQuorumSeq = 0 ∧
    param.prevLogIndex + 1 = c.replication.nextIndex id ∧
    c.replication.nextIndex id ≠ c.replication.matchIndex id + 1

/-- The default result at a leader: nothing happens, or the next index falls back to the match index. -/
theorem CoreState.handleAppendResponse_default (c : RaftCore) (id : ReplicaID)
    (sent : AppendEntriesParam) :
    (CoreState.handleAppendResponse { core := c } id sent {}).2.core =
      if c.recovering = false ∧ sent.term = c.currentTerm ∧ c.isLeader = true ∧
          sent.prevLogIndex + 1 = c.replication.nextIndex id then
        { c with replication := c.replication.updateNextIndex id (c.replication.matchIndex id + 1) }
      else c := by
  simp only [handleAppendResponse, Nat.not_lt_zero, if_false, Bool.false_eq_true,
    RaftReplication.handlePeerAppendFailed_zero]
  by_cases hready : c.recovering = true
  · simp [RaftCore.ensureReady, Status.fail, hready]
  have hready : c.recovering = false := Bool.eq_false_of_not_eq_true hready
  have hfail : c.ensureReady.fail = false := by simp [RaftCore.ensureReady, hready]
  rw [if_neg (by simp [hfail])]
  by_cases hterm : sent.term = c.election.currentTerm
  swap
  · simp [hterm, RaftCore.currentTerm]
  by_cases hleader : c.election.isLeader = true
  swap
  · simp [hterm, hleader, RaftCore.isLeader]
  by_cases hfresh : sent.prevLogIndex + 1 = c.replication.nextIndex id
  · simp [hterm, hleader, hfresh, hready, RaftCore.currentTerm, RaftCore.isLeader,
      RaftReplication.isStaleAppendResponse]
  · simp [hterm, hleader, hfresh, RaftReplication.isStaleAppendResponse]

/-- What the leader's loop makes of a refused call. -/
theorem ReplicaLoop.afterAppendCall_refused {stub : AppendEntriesStub} {response : AppendEntriesResponse}
    (hstub : stub (GrpcRaftRpcTransport.request param) = .ok response)
    (hdefault : response = { baseRsp := response.baseRsp }) (l : ReplicaLoop) (target : PeerMember) :
    (l.afterAppendCall codec stub target param).state.core =
      if param.readQuorumSeq = 0 then
        (CoreState.handleAppendResponse { core := l.state.core } target.replicaId param {}).2.core
      else l.state.core := by
  have hresult : GrpcRaftRpcTransport.appendEntries stub param = .ok {} := by
    rw [GrpcRaftRpcTransport.appendEntries, hstub, hdefault]
  by_cases hseq : param.readQuorumSeq = 0
  · have hevent : ReplicaMessageDispatcher.sendAppendEntries stub target param =
        some (.appendResponse target.replicaId param {}) := by
      rw [ReplicaMessageDispatcher.sendAppendEntries, hresult]
      simp [hseq]
    rw [if_pos hseq, afterAppendCall, hevent]
    show (l.state.executeEvent _).2.1.core = _
    simp only [ReplicaState.executeEvent, ReplicaState.execute]
    split
    · rfl
    · split <;> rfl
  · have hevent : ReplicaMessageDispatcher.sendAppendEntries stub target param =
        some (.readQuorumResponse target.replicaId param.readQuorumSeq 0) := by
      rw [ReplicaMessageDispatcher.sendAppendEntries, hresult]
      simp [hseq]
    rw [if_neg hseq, afterAppendCall, hevent]
    rfl

/-- **Progress after a refused call.** The target's service answers with a failed status. The leader's
next and match index for the target stay where they are unless the answer counts as one to the last
probe and that probe lay beyond the match index. -/
theorem refused_append_keeps_progress_iff (codec : SnapshotCodec) (leader : ReplicaLoop)
    (target : PeerMember) (param : AppendEntriesParam) (service : StorageServiceImpl)
    (closing : Option Status)
    (hrefused : (service.appendEntries codec closing
      (GrpcRaftRpcTransport.request param)).baseRsp.fail = true) :
    let after := leader.afterAppendCall codec (fun request =>
      .ok (service.appendEntries codec closing request)) target param
    (after.state.core.replication.nextIndex target.replicaId =
        leader.state.core.replication.nextIndex target.replicaId ∧
      after.state.core.replication.matchIndex target.replicaId =
        leader.state.core.replication.matchIndex target.replicaId) ↔
      ¬ leader.state.core.Rewinds target.replicaId param := by
  intro after
  have hcore : after.state.core = _ := ReplicaLoop.afterAppendCall_refused rfl
    (StorageServiceImpl.appendEntries_refused hrefused) leader target
  rw [hcore, CoreState.handleAppendResponse_default]
  set c := leader.state.core
  by_cases hseq : param.readQuorumSeq = 0
  swap
  · simp [hseq, RaftCore.Rewinds]
  rw [if_pos hseq]
  split
  · next hprobe =>
    obtain ⟨hready, hterm, hleader, hfresh⟩ := hprobe
    simp only [RaftReplication.updateNextIndex, Function.update_self, RaftCore.Rewinds, hready, hterm,
      hleader, hseq, hfresh, true_and, and_true, not_not]
    exact eq_comm
  · next hprobe =>
    refine iff_of_true ⟨rfl, rfl⟩ ?_
    rintro ⟨hready, hleader, hterm, -, hfresh, -⟩
    exact hprobe ⟨hready, hterm, hleader, hfresh⟩

/-! ## A fresh leader and a target that is not there -/

/-- A leader of term 2 that has just been elected in a group of two, with its noop at index 3. -/
def freshLeader : ReplicaLoop :=
  { state := { core :=
      { RaftCore.create (replica 1) (groupMembers 2) (fun _ => electionTimeoutMinTicks) with
        election := { selfId := replica 1, role := .leader, currentTerm := 2 }
        raftLog := { logEntries := [{ term := 1, index := 1 }, { term := 1, index := 2 },
          { term := 2, index := 3 }] }
        replication := { nextIndex := fun id => if id = replica 2 then 3 else 0 } } } }

/-- Its first message to the other replica. -/
def firstProbe : AppendEntriesParam :=
  { fromReplicaId := replica 1, toReplicaId := replica 2, term := 2, prevLogIndex := 2, prevLogTerm := 1,
    entries := [{ term := 2, index := 3 }] }

/-- A node that does not host the replica yet, as the leader's stub sees it. -/
def emptyService : StorageServiceImpl := { replicaManager := some fun _ => none }

/-- A read-index probe that the empty node refuses leaves the progress alone. -/
theorem refused_read_probe_keeps_progress :
    (emptyService.appendEntries (sampleCodec {}) none
        (GrpcRaftRpcTransport.request { firstProbe with readQuorumSeq := 1 })).baseRsp.fail = true ∧
      (freshLeader.afterAppendCall (sampleCodec {}) (fun request =>
          .ok (emptyService.appendEntries (sampleCodec {}) none request)) { replicaId := replica 2 }
        { firstProbe with readQuorumSeq := 1 }).state.core.replication.nextIndex (replica 2) = 3 :=
  ⟨rfl, ((refused_append_keeps_progress_iff (sampleCodec {}) freshLeader { replicaId := replica 2 }
    { firstProbe with readQuorumSeq := 1 } emptyService none rfl).mpr (by simp [RaftCore.Rewinds])).1⟩

/-- A probe that the empty node refuses sends the leader back to index 1. -/
theorem refused_probe_rewinds_progress :
    (emptyService.appendEntries (sampleCodec {}) none
        (GrpcRaftRpcTransport.request firstProbe)).baseRsp =
        ⟨.replicaNotFound, "target replica not found"⟩ ∧
      freshLeader.state.core.replication.nextIndex (replica 2) = 3 ∧
      (freshLeader.afterAppendCall (sampleCodec {}) (fun request =>
          .ok (emptyService.appendEntries (sampleCodec {}) none request)) { replicaId := replica 2 }
        firstProbe).state.core.replication.nextIndex (replica 2) = 1 :=
  ⟨rfl, rfl, by decide⟩

end AdvisKV
