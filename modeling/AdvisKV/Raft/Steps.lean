import AdvisKV.Raft.AppendEntries
import Mathlib.Logic.Relation

/-!
# AdvisKV — what one core event can do

Every handler of the core is a chain of a few primitive moves: a timer is touched, a vote is
recorded, an entry is appended, a message is built, the commit index moves. `Micro` lists the moves
with the tests the code makes before each of them, and `CoreEvent.step_steps` says that the handler of an
event is a chain of moves for that event. Invariants of the core are proved move by move from here on,
without opening a handler again.

Main results:

* `RaftReplication.tryAdvanceCommitIndex_spec` — a leader's commit index only moves to an index of its
  own term that a quorum is known to hold.
* `CoreEvent.step_steps` — the handler of an event is a chain of moves.
-/

namespace AdvisKV

/-- An event of the replica loop that runs a step of the core. -/
inductive CoreEvent where
  | tick
  | proposeBatch (params : List ProposeParam)
  | addLearner (member : PeerMember)
  | removeMember (id : ReplicaID)
  | preVoteResponse (sender : ReplicaID) (result : PreVoteResult)
  | requestVote (param : RequestVoteParam)
  | voteResponse (sender : ReplicaID) (result : RequestVoteResult)
  | appendEntries (param : AppendEntriesParam)
  | appendResponse (sender : ReplicaID) (sent : AppendEntriesParam) (result : AppendEntriesResult)
  | readQuorumCheck (seq : Nat)
  | prepareInstallSnapshot (param : InstallSnapshotParam)
  | installSnapshot (header : SnapshotHeader)
  | snapshotResponse (sender : ReplicaID) (sent : InstallSnapshotParam)
      (result : InstallSnapshotResult)
  | snapshotSendFailed (sender : ReplicaID) (sent : InstallSnapshotParam)

/-- The handler of each event. -/
def CoreEvent.step : CoreEvent → CoreState → CoreState
  | .tick, s => s.tick
  | .proposeBatch params, s => (s.proposeBatch params).2
  | .addLearner member, s => (s.ensureAddLearner member).2
  | .removeMember id, s => (s.ensureRemoveMember id).2
  | .preVoteResponse sender result, s => s.handlePreVoteResponse sender result
  | .requestVote param, s => (s.handleRequestVote param).2
  | .voteResponse sender result, s => s.handleVoteResponse sender result
  | .appendEntries param, s => (s.handleAppendEntries param).2
  | .appendResponse sender sent result, s => (s.handleAppendResponse sender sent result).2
  | .readQuorumCheck seq, s => (s.buildReadQuorumCheck seq).2
  | .prepareInstallSnapshot param, s => (s.prepareInstallSnapshot param).2.2
  | .installSnapshot header, s => s.installSnapshot header
  | .snapshotResponse sender sent result, s => s.handleInstallSnapshotResponse sender sent result
  | .snapshotSendFailed sender sent, s =>
    { s with core := CoreState.handleInstallSnapshotSendFailed s.core sender sent }

/-! ## The trigger -/

namespace TickTrigger

variable (t : TickTrigger)

@[simp] theorem makeNextLimit_stopFlag : t.makeNextLimit.stopFlag = t.stopFlag := by
  unfold makeNextLimit
  split <;> rfl

@[simp] theorem isCatchUpLimit_stopFlag : t.isCatchUpLimit.2.stopFlag = t.stopFlag := by
  unfold isCatchUpLimit
  split
  · rfl
  · simp

@[simp] theorem tick_stopFlag : t.tick.2.stopFlag = t.stopFlag := by
  unfold tick
  split
  · rfl
  · simp

@[simp] theorem reset_stopFlag : t.reset.stopFlag = false := by simp [reset]

@[simp] theorem clear_stopFlag : t.clear.stopFlag = t.stopFlag := by
  unfold clear
  split
  · rfl
  · next h => simpa using (Bool.eq_false_of_not_eq_true h).symm

end TickTrigger

/-! ## The messages a core builds -/

/-- A transfer that has been asked for: the peer and the parameters sent to it. -/
structure SnapshotAttempt where
  target : ReplicaID
  sent : InstallSnapshotParam
deriving DecidableEq, Repr

/-- The transfer a message asks for. -/
def RaftMessage.snapshotAttempt : RaftMessage → Option SnapshotAttempt
  | .installSnapshot target param => some ⟨target.replicaId, param⟩
  | _ => none

namespace RaftCore

/-- The fields of a vote request; a pre-vote names the term its sender would stand in. -/
def voteParam (c : RaftCore) (target : PeerMember) (term : Nat) : RequestVoteParam :=
  { fromReplicaId := c.selfId
    toReplicaId := target.replicaId
    term
    lastLogIndex := c.raftLog.lastLogIndex
    lastLogTerm := c.raftLog.lastLogTerm }

/-- The AppendEntries for a peer whose next index is `next`. -/
def appendParam (c : RaftCore) (target : PeerMember) (next : Nat) : AppendEntriesParam :=
  { fromReplicaId := c.selfId
    toReplicaId := target.replicaId
    term := c.election.currentTerm
    prevLogIndex := next - 1
    prevLogTerm := c.raftLog.termAt (next - 1)
    leaderCommit := c.raftApply.commitIndex
    entries := c.raftLog.entriesFrom next maxAppendEntriesPerMessage }

/-- The empty AppendEntries that asks a voter to confirm the leader for read `seq`. -/
def readParam (c : RaftCore) (target : PeerMember) (seq : Nat) : AppendEntriesParam :=
  { fromReplicaId := c.selfId
    toReplicaId := target.replicaId
    term := c.election.currentTerm
    prevLogIndex := c.raftLog.lastLogIndex
    prevLogTerm := c.raftLog.lastLogTerm
    leaderCommit := c.raftApply.commitIndex
    readQuorumSeq := seq }

def snapshotParam (c : RaftCore) (target : PeerMember) : InstallSnapshotParam :=
  { fromReplicaId := c.selfId
    toReplicaId := target.replicaId
    term := c.election.currentTerm
    snapshotIndex := c.raftLog.snapshotIndex
    snapshotTerm := c.raftLog.snapshotTerm }

/-- The messages a core in this state may hand to the dispatcher, and for which event. -/
def Emits (c : RaftCore) (ev : CoreEvent) : RaftMessage → Prop
  | .requestVote target param =>
    c.election.role = .candidate ∧ param = c.voteParam target c.election.currentTerm
  | .preVote target param =>
    c.election.role = .preCandidate ∧ param = c.voteParam target c.election.preVoteTerm
  | .appendEntries target param =>
    c.election.role = .leader ∧ c.recovering = false ∧
      ((0 < c.replication.nextIndex target.replicaId ∧
          c.raftLog.snapshotIndex ≤ c.replication.nextIndex target.replicaId - 1 ∧
          param = c.appendParam target (c.replication.nextIndex target.replicaId)) ∨
        ∃ seq, ev = .readQuorumCheck seq ∧ c.hasCommittedCurrentTermEntry = true ∧
          param = c.readParam target seq)
  | .installSnapshot target param =>
    c.election.role = .leader ∧ c.recovering = false ∧
      0 < c.replication.nextIndex target.replicaId ∧
      c.replication.nextIndex target.replicaId - 1 < c.raftLog.snapshotIndex ∧
      param = c.snapshotParam target

/-- The proposals a core may append while it handles `ev`: the leader's own no-op, a proposal of the
batch, and a configuration change, which is only made while no other one is unapplied. -/
def Proposes (c : RaftCore) (ev : CoreEvent) (param : ProposeParam) : Prop :=
  param = .noop ∨ (∃ params, ev = .proposeBatch params ∧ param ∈ params) ∨
  (c.firstUnappliedConfigEntry = none ∧
    ((∃ learner ∈ c.membership.learners,
        param = .configChange { op := .promoteVoter, targetReplicaId := learner.replicaId }) ∨
      (∃ member, ev = .addLearner member ∧ param = .configChange { op := .addLearner, member }) ∨
      ∃ id, ev = .removeMember id ∧ param = .configChange { op := .removeMember, targetReplicaId := id }))

end RaftCore

/-! ## Moves -/

/-- A move of the core while it handles the event `e`. -/
inductive Micro (e : CoreEvent) : CoreState → CoreState → Prop
  /-- The tick triggers and the leader-activity flag, which no safety argument reads. Only a leader stops
  its election timer. -/
  | timers (s : CoreState) (election heartbeat : TickTrigger) (active : Bool)
    (running : election.stopFlag = true →
      s.core.election.role = .leader ∨ s.core.electionTickTrigger.stopFlag = true) :
    Micro e s { s with core := { s.core with
      electionTickTrigger := election
      heartbeatTickTrigger := heartbeat
      recentLeaderActive := active } }
  | follow (s : CoreState) (term : Nat) (hle : s.core.election.currentTerm ≤ term) :
    Micro e s (s.becomeFollower term)
  | preCandidate (s : CoreState) (ready : s.core.recovering = false)
    (voter : s.core.membership.isVoter s.core.selfId = true)
    (role : s.core.election.role ≠ .leader) :
    Micro e s { s with core := { s.core with election := s.core.election.becomePreCandidate } }
  | preVoteCounted (s : CoreState) (sender : ReplicaID)
    (role : s.core.election.role = .preCandidate) :
    Micro e s { s with core := { s.core with election := { s.core.election with
      preVoteGrantedVoters := insert sender s.core.election.preVoteGrantedVoters } } }
  | candidate (s : CoreState) (ready : s.core.recovering = false)
    (voter : s.core.membership.isVoter s.core.selfId = true)
    (role : s.core.election.role = .preCandidate) :
    Micro e s (CoreState.recordHardState
      { s with core := { s.core with election := s.core.election.becomeCandidate } })
  | voteCounted (s : CoreState) (sender : ReplicaID) (result : RequestVoteResult)
    (event : e = .voteResponse sender result) (role : s.core.election.role = .candidate)
    (term : result.term = s.core.election.currentTerm) (granted : result.voteGranted = true)
    (voter : s.core.membership.isVoter sender = true) :
    Micro e s { s with core := { s.core with election := { s.core.election with
      grantedVoters := insert sender s.core.election.grantedVoters } } }
  | lead (s : CoreState) (ready : s.core.recovering = false)
    (voter : s.core.membership.isVoter s.core.selfId = true)
    (role : s.core.election.role = .candidate)
    (quorum : s.core.membership.hasQuorum s.core.election.grantedVoters.card = true) :
    Micro e s (CoreState.appendNewEntry { s with core := { s.core with
      election := s.core.election.becomeLeader
      replication := RaftReplication.resetForLeader s.core.selfId s.core.membership
        s.core.raftLog } } .noop)
  | grantVote (s : CoreState) (param : RequestVoteParam) (event : e = .requestVote param)
    (ready : s.core.recovering = false)
    (voter : s.core.membership.isVoter s.core.selfId = true)
    (candidate : s.core.membership.isVoter param.fromReplicaId = true)
    (term : s.core.election.currentTerm = param.term)
    (log : s.core.laterThanOther param.lastLogTerm param.lastLogIndex = false)
    (free : s.core.election.canGrantVoteTo param.fromReplicaId = true) :
    Micro e s (CoreState.recordHardState
      { s with core := { s.core with election := { s.core.election with
        votedFor := some param.fromReplicaId } } })
  | append (s : CoreState) (param : ProposeParam) (ready : s.core.recovering = false)
    (role : s.core.election.role = .leader)
    (voter : s.core.membership.isVoter s.core.selfId = true)
    (source : s.core.Proposes e param) (valid : (RaftCore.validateProposal param).fail = false) :
    Micro e s (s.appendNewEntry param)
  | send (s : CoreState) (m : RaftMessage) (built : s.core.Emits e m)
    (plain : m.snapshotAttempt = none) : Micro e s (s.send m)
  /-- A peer whose next entry the snapshot has swallowed: the transfer is marked and sent at once. -/
  | offer (s : CoreState) (target : PeerMember)
    (built : s.core.Emits e (.installSnapshot target (s.core.snapshotParam target)))
    (free : s.core.replication.inflightSnapshotIndex target.replicaId = 0) :
    Micro e s (CoreState.send { s with core := { s.core with
      replication := { s.core.replication with
        inflightSnapshotIndex := Function.update s.core.replication.inflightSnapshotIndex
          target.replicaId s.core.raftLog.snapshotIndex } } }
      (.installSnapshot target (s.core.snapshotParam target)))
  | setNext (s : CoreState) (id : ReplicaID) (role : s.core.election.role = .leader) :
    Micro e s { s with core := { s.core with
      replication := s.core.replication.updateNextIndex id (s.core.raftLog.lastLogIndex + 1) } }
  | settle (s : CoreState) (sender : ReplicaID) (sent : InstallSnapshotParam)
    (event : (∃ result, e = .snapshotResponse sender sent result) ∨ e = .snapshotSendFailed sender sent)
    (role : s.core.election.role = .leader) (term : sent.term = s.core.election.currentTerm) :
    Micro e s { s with core := { s.core with
      replication := s.core.replication.clearSnapshotInflight sender sent.snapshotIndex } }
  | ackOk (s : CoreState) (sender : ReplicaID) (sent : AppendEntriesParam)
    (result : AppendEntriesResult) (event : e = .appendResponse sender sent result)
    (ready : s.core.recovering = false) (role : s.core.election.role = .leader)
    (term : sent.term = s.core.election.currentTerm)
    (noLater : result.term ≤ s.core.election.currentTerm)
    (fresh : sent.prevLogIndex + 1 = s.core.replication.nextIndex sender)
    (success : result.success = true) :
    Micro e s { s with core := { s.core with
      replication := s.core.replication.handlePeerAppendOk sender sent.prevLogIndex
        sent.entries.length } }
  | ackFailed (s : CoreState) (sender : ReplicaID) (sent : AppendEntriesParam)
    (result : AppendEntriesResult) (event : e = .appendResponse sender sent result)
    (role : s.core.election.role = .leader) (term : sent.term = s.core.election.currentTerm)
    (noLater : result.term ≤ s.core.election.currentTerm)
    (fresh : sent.prevLogIndex + 1 = s.core.replication.nextIndex sender)
    (failure : result.success = false) :
    Micro e s { s with core := { s.core with
      replication := s.core.replication.handlePeerAppendFailed sender result.lastLogIndex
        s.core.raftLog.lastLogIndex } }
  | watermark (s : CoreState) (sender : ReplicaID) (sent : InstallSnapshotParam)
    (result : InstallSnapshotResult) (event : e = .snapshotResponse sender sent result)
    (ready : s.core.recovering = false) (role : s.core.election.role = .leader)
    (term : sent.term = s.core.election.currentTerm)
    (noLater : result.term ≤ s.core.election.currentTerm) (ok : result.status.isOk = true) :
    Micro e s { s with core := { s.core with
      replication := s.core.replication.updateSnapshotWatermark sender
        (max result.snapshotWatermark sent.snapshotIndex) } }
  | leaderCommit (s : CoreState) (new : Nat) (ready : s.core.recovering = false)
    (role : s.core.election.role = .leader) (later : s.core.raftApply.commitIndex < new)
    (held : new ≤ s.core.raftLog.lastLogIndex)
    (term : s.core.raftLog.termAt new = s.core.election.currentTerm)
    (quorum : s.core.membership.hasQuorum
      (s.core.replication.successCnt s.core.selfId s.core.membership new) = true) :
    Micro e s { s with core := { s.core with
      raftApply := s.core.raftApply.setCommitIndex new } }
  | accept (s : CoreState) (param : AppendEntriesParam) (log : RaftLog) (r : LogAppendResult)
    (event : e = .appendEntries param) (role : s.core.election.role = .follower)
    (term : s.core.election.currentTerm = param.term)
    (member : s.core.membership.contains param.fromReplicaId = true)
    (prev : CoreState.prevLogMatches s.core.raftLog param = true)
    (merged : s.core.raftLog.appendEntriesFromLeader param.entries = .ok (log, r))
    (noAppend : s.effects.entriesToAppend = []) (noRewrite : s.effects.entriesToRewrite = none) :
    Micro e s ((s.storeMerge log r).acceptAppend param.leaderCommit)
  | install (s : CoreState) (header : SnapshotHeader) (event : e = .installSnapshot header)
    (noAppend : s.effects.entriesToAppend = []) (noRewrite : s.effects.entriesToRewrite = none) :
    Micro e s (s.installSnapshot header)

/-- A chain of moves for one event. -/
abbrev Steps (e : CoreEvent) : CoreState → CoreState → Prop := Relation.ReflTransGen (Micro e)

/-! ## The commit rule of a leader -/

/-- **The commit rule of a leader**: the commit index stays, or moves to an index of the current term that a
quorum is known to hold. -/
theorem RaftReplication.tryAdvanceCommitIndex_spec (r : RaftReplication) (selfId : ReplicaID)
    (membership : RaftMembership) (log : RaftLog) (commit term : Nat) :
    let new := r.tryAdvanceCommitIndex selfId membership log commit term
    new = commit ∨ (commit < new ∧ new ≤ log.lastLogIndex ∧ log.termAt new = term ∧
      membership.hasQuorum (r.successCnt selfId membership new) = true) := by
  intro new
  -- the fold ends on its start value or on an index that passed both tests
  have hfold : ∀ (is : List Nat) (start : Nat),
      let last := is.foldl (fun commit idx =>
        if log.termAt idx ≠ term then commit
        else if membership.hasQuorum (r.successCnt selfId membership idx) then idx
        else commit) start
      last = start ∨ (last ∈ is ∧ log.termAt last = term ∧
        membership.hasQuorum (r.successCnt selfId membership last) = true) := by
    intro is
    induction is with
    | nil => exact fun start => Or.inl rfl
    | cons idx is ih =>
      intro start
      simp only [List.foldl_cons]
      split
      · rcases ih start with h | ⟨hm, h⟩
        · exact Or.inl h
        · exact Or.inr ⟨List.mem_cons_of_mem _ hm, h⟩
      · next hterm =>
        split
        · next hq =>
          rcases ih idx with h | ⟨hm, h⟩
          · refine Or.inr ?_
            rw [h]
            exact ⟨List.mem_cons_self, not_not.mp hterm, hq⟩
          · exact Or.inr ⟨List.mem_cons_of_mem _ hm, h⟩
        · rcases ih start with h | ⟨hm, h⟩
          · exact Or.inl h
          · exact Or.inr ⟨List.mem_cons_of_mem _ hm, h⟩
  rcases hfold (List.range' (commit + 1) (log.lastLogIndex - commit)) commit with h | ⟨hm, ht, hq⟩
  · exact Or.inl h
  · have := List.mem_range'_1.mp hm
    exact Or.inr ⟨by simp only [new, tryAdvanceCommitIndex]; omega,
      by simp only [new, tryAdvanceCommitIndex]; omega, ht, hq⟩

/-! ## Handlers as chains of moves -/

variable {c : RaftCore}

/-- The readiness test fails during recovery only. -/
theorem RaftCore.ensureReady_fail_eq_false :
    c.ensureReady.fail = false ↔ c.recovering = false := by
  unfold ensureReady
  cases c.recovering
  · simp
  · simp [Status.fail]

theorem RaftCore.ready_of_passed (h : ¬c.ensureReady.fail = true) : c.recovering = false :=
  ensureReady_fail_eq_false.mp (Bool.eq_false_of_not_eq_true h)

/-- The shape shared by the two leader tests: ready, then leader, then one test of its own. -/
theorem RaftCore.leaderTest_fail_eq_false {own : Bool} {st : Status} (hst : st.fail = true) :
    (if c.ensureReady.fail then c.ensureReady
      else if !c.election.isLeader then ⟨.notLeader, "not leader"⟩
      else if !own then st else Status.OK).fail = false ↔
      c.recovering = false ∧ c.election.role = .leader ∧ own = true := by
  by_cases hr : c.recovering = true
  · have hfail : c.ensureReady.fail = true := by simp [ensureReady, hr, Status.fail]
    simp [hfail, hr]
  · have hready : c.ensureReady.fail = false := ensureReady_fail_eq_false.mpr (by simpa using hr)
    have hrole : c.election.isLeader = true ↔ c.election.role = .leader := by
      simp [RaftElection.isLeader]
    by_cases hl : c.election.role = .leader
    · cases own
      · simp [hready, hrole.mpr hl, hst]
      · simp [hready, hrole.mpr hl, hl, hr]
    · have hl' : c.election.isLeader = false := by simpa [RaftElection.isLeader] using hl
      simp only [hready, hl', hl, Bool.false_eq_true, if_false, Bool.not_false, if_true, false_and,
        and_false, iff_false]
      simp [Status.fail]

/-- Who may append. -/
theorem RaftCore.ensureWritableLeader_fail_eq_false :
    c.ensureWritableLeader.fail = false ↔ c.recovering = false ∧ c.election.role = .leader ∧
      c.membership.isVoter c.selfId = true :=
  leaderTest_fail_eq_false rfl

/-- Who may serve a read. -/
theorem RaftCore.ensureReadableLeader_fail_eq_false :
    c.ensureReadableLeader.fail = false ↔ c.recovering = false ∧ c.election.role = .leader ∧
      c.hasCommittedCurrentTermEntry = true :=
  leaderTest_fail_eq_false rfl

/-- A ready leader, the state every replication move starts from. -/
structure RaftCore.Leads (c : RaftCore) : Prop where
  ready : c.recovering = false
  role : c.election.role = .leader

namespace CoreState

variable {e : CoreEvent} {s : CoreState}

/-- A loop whose body is a chain of moves, under a condition the body keeps. -/
theorem foldl_steps {α : Type} {P : CoreState → Prop} {f : CoreState → α → CoreState}
    (hf : ∀ s a, P s → Steps e s (f s a) ∧ P (f s a)) (as : List α) :
    ∀ s, P s → Steps e s (as.foldl f s) ∧ P (as.foldl f s) := by
  induction as with
  | nil => exact fun s hs => ⟨.refl, hs⟩
  | cons a as ih =>
    intro s hs
    obtain ⟨hstep, hP⟩ := hf s a hs
    obtain ⟨hrest, hP'⟩ := ih (f s a) hP
    exact ⟨hstep.trans hrest, hP'⟩

/-- The replication record the broadcast loop works with: an unknown peer gets a next index first. -/
def nextKnown (c : RaftCore) (id : ReplicaID) : RaftReplication :=
  if c.replication.nextIndex id = 0 then
    c.replication.updateNextIndex id (c.raftLog.lastLogIndex + 1)
  else c.replication

/-- A message for one peer: its next index is set if unknown, then a slice or the snapshot is sent. -/
theorem broadcastTo_steps (h : s.core.Leads) (member : RaftMember) :
    Steps e s (s.broadcastTo member) ∧ (s.broadcastTo member).core.Leads := by
  by_cases hself : member.peer.replicaId = s.core.selfId
  · rw [broadcastTo, if_pos hself]
    exact ⟨.refl, h⟩
  obtain ⟨s₁, hs₁, hsteps, hlead, hnext⟩ : ∃ s₁ : CoreState,
      s₁ = { s with core := { s.core with replication := nextKnown s.core member.peer.replicaId } } ∧
      Steps e s s₁ ∧ s₁.core.Leads ∧ 0 < s₁.core.replication.nextIndex member.peer.replicaId := by
    refine ⟨_, rfl, ?_⟩
    unfold nextKnown
    split
    · exact ⟨.single (.setNext s _ h.role), ⟨h.ready, h.role⟩, by
        simp [RaftReplication.updateNextIndex]⟩
    · next hn => exact ⟨.refl, h, Nat.pos_of_ne_zero hn⟩
  -- then the message is built from the core as it is now
  have hbuilt (r : RaftReplication) (m : Option RaftMessage)
      (hb : s₁.core.replication.buildAppendEntriesMessage s₁.core.selfId s₁.core.raftLog
        s₁.core.raftApply member.peer (s₁.core.replication.nextIndex member.peer.replicaId)
        s₁.core.election.currentTerm = (r, m)) :
      s.broadcastTo member =
        let s' : CoreState := { s₁ with core := { s₁.core with replication := r } }
        m.elim s' s'.send := by
    subst hs₁
    unfold nextKnown at hb
    dsimp only at hb
    rw [broadcastTo, if_neg hself]
    simp only [hb]
    rcases m with _ | m
    · rfl
    · rfl
  rw [hbuilt _ _ Prod.mk.eta.symm]
  simp only [RaftReplication.buildAppendEntriesMessage, RaftReplication.markSnapshotInflight]
  -- the entry in front is gone from the log: the snapshot goes out, at most one at a time
  by_cases hprev : s₁.core.replication.nextIndex member.peer.replicaId - 1 <
      s₁.core.raftLog.snapshotIndex
  · simp only [hprev, if_true]
    by_cases hfl : 0 < s₁.core.replication.inflightSnapshotIndex member.peer.replicaId
    · simp only [hfl, if_true]
      exact ⟨hsteps, hlead⟩
    · simp only [hfl, if_false]
      refine ⟨hsteps.tail (.offer s₁ member.peer ?_ (Nat.eq_zero_of_not_pos hfl)), hlead.ready,
        hlead.role⟩
      exact ⟨hlead.role, hlead.ready, hnext, hprev, rfl⟩
  · simp only [hprev, if_false]
    refine ⟨hsteps.tail (.send s₁ _ ?_ rfl), hlead.ready, hlead.role⟩
    exact ⟨hlead.role, hlead.ready, Or.inl ⟨hnext, by omega, rfl⟩⟩

/-- A broadcast goes round the members, and the leader still leads after each of them. -/
theorem broadcastAppendEntries_steps (h : s.core.Leads) :
    Steps e s s.broadcastAppendEntries ∧ s.broadcastAppendEntries.core.Leads := by
  unfold broadcastAppendEntries
  split
  · exact ⟨.refl, h⟩
  split
  · exact ⟨.refl, h⟩
  exact foldl_steps (fun s member hs => broadcastTo_steps hs member) _ s h

/-- A commit index that moved is announced at once. -/
theorem tryUpdateCommitIndex_steps (h : s.core.Leads) :
    Steps e s s.tryUpdateCommitIndex ∧ s.tryUpdateCommitIndex.core.Leads := by
  simp only [tryUpdateCommitIndex]
  split
  · exact ⟨.refl, h⟩
  set new := s.core.replication.tryAdvanceCommitIndex s.core.selfId s.core.membership s.core.raftLog
    s.core.raftApply.commitIndex s.core.election.currentTerm with hnew
  -- a commit index that stays is no move
  have hmove : Steps e s
      { s with core := { s.core with raftApply := s.core.raftApply.setCommitIndex new } } := by
    rcases RaftReplication.tryAdvanceCommitIndex_spec s.core.replication s.core.selfId
      s.core.membership s.core.raftLog s.core.raftApply.commitIndex s.core.election.currentTerm with
      hsame | ⟨hlt, hlast, hterm, hq⟩
    · rw [← hnew] at hsame
      rw [hsame]
      exact .refl
    · exact .single (.leaderCommit s new h.ready h.role hlt hlast hterm hq)
  have hlead : RaftCore.Leads
      { s.core with raftApply := s.core.raftApply.setCommitIndex new } := ⟨h.ready, h.role⟩
  split
  · obtain ⟨hb, hl⟩ := broadcastAppendEntries_steps (e := e) (s := { s with core :=
      { s.core with raftApply := s.core.raftApply.setCommitIndex new } }) hlead
    exact ⟨hmove.trans hb, hl⟩
  · exact ⟨hmove, hlead⟩

/-- A leader alone commits at once, without an answer to wait for. -/
theorem broadcastAndCommit_steps (h : s.core.Leads) : Steps e s s.broadcastAndCommit := by
  obtain ⟨hb, hl⟩ := broadcastAppendEntries_steps (e := e) h
  simp only [broadcastAndCommit]
  split
  · exact hb.trans (tryUpdateCommitIndex_steps hl).1
  · exact hb

/-- A proposal that passes the tests is appended, sent and, in a group of one, committed. -/
theorem propose_steps {param : ProposeParam} (hsrc : s.core.Proposes e param) :
    Steps e s (s.propose param).2 := by
  unfold propose
  split
  · exact .refl
  · next hw =>
    split
    · exact .refl
    · next hv =>
      obtain ⟨hready, hrole, hvoter⟩ :=
        RaftCore.ensureWritableLeader_fail_eq_false.mp (by simpa using hw)
      exact .head (.append s param hready hrole hvoter hsrc (by simpa using hv))
        (broadcastAndCommit_steps ⟨hready, hrole⟩)

/-- The proposals of a batch are appended one by one; the invalid ones are skipped. -/
theorem proposeEach_steps (params : List ProposeParam)
    (hsrc : ∃ all, e = .proposeBatch all ∧ params ⊆ all) (h : s.core.Leads)
    (hvoter : s.core.membership.isVoter s.core.selfId = true) :
    Steps e s (s.proposeEach params).2 ∧ (s.proposeEach params).2.core.Leads := by
  induction params generalizing s with
  | nil => exact ⟨.refl, h⟩
  | cons param rest ih =>
    obtain ⟨all, hev, hall⟩ := hsrc
    have hrest : ∃ all, e = .proposeBatch all ∧ rest ⊆ all :=
      ⟨all, hev, fun p hp => hall (List.mem_cons_of_mem _ hp)⟩
    unfold proposeEach
    split
    · exact ih hrest h hvoter
    · next hv =>
      have happend : Micro e s (s.appendNewEntry param) :=
        .append s param h.ready h.role hvoter (Or.inr (Or.inl ⟨all, hev, hall List.mem_cons_self⟩))
          (by simpa using hv)
      obtain ⟨hsteps, hl⟩ := ih (s := s.appendNewEntry param) hrest ⟨h.ready, h.role⟩ hvoter
      exact ⟨.head happend hsteps, hl⟩

/-- A batch is appended entry by entry and sent once. -/
theorem proposeBatch_steps (params : List ProposeParam) :
    Steps (.proposeBatch params) s (s.proposeBatch params).2 := by
  unfold proposeBatch
  split
  · exact .refl
  split
  · exact .refl
  · next hw =>
    obtain ⟨hready, hrole, hvoter⟩ :=
      RaftCore.ensureWritableLeader_fail_eq_false.mp (by simpa using hw)
    obtain ⟨heach, hl⟩ := proposeEach_steps (e := .proposeBatch params) params
      ⟨params, rfl, List.Subset.refl _⟩ ⟨hready, hrole⟩ hvoter
    simp only
    split
    · exact heach.trans (broadcastAndCommit_steps hl)
    · exact heach

/-- A learner is promoted by a proposal of the leader itself. -/
theorem maybePromoteReadyLearner_steps : Steps e s s.maybePromoteReadyLearner := by
  unfold maybePromoteReadyLearner
  split
  · exact .refl
  split
  · exact .refl
  next hpending =>
  split
  · exact .refl
  · next learner hfound =>
    exact propose_steps (Or.inr (Or.inr ⟨by simpa using hpending,
      Or.inl ⟨learner, List.mem_of_find?_eq_some hfound, rfl⟩⟩))

theorem ensureAddLearner_steps (member : PeerMember) :
    Steps (.addLearner member) s (s.ensureAddLearner member).2 := by
  unfold ensureAddLearner
  split
  · exact .refl
  split
  · exact .refl
  split
  · split <;> exact .refl
  · next hpending =>
    exact propose_steps (Or.inr (Or.inr ⟨hpending, Or.inr (Or.inl ⟨member, rfl, rfl⟩)⟩))

theorem ensureRemoveMember_steps (id : ReplicaID) :
    Steps (.removeMember id) s (s.ensureRemoveMember id).2 := by
  unfold ensureRemoveMember
  split
  · exact .refl
  split
  · exact .refl
  split
  · split <;> exact .refl
  · next hpending =>
    exact propose_steps (Or.inr (Or.inr ⟨hpending, Or.inr (Or.inr ⟨id, rfl, rfl⟩)⟩))

/-! ## Elections -/

/-- The winner appends its no-op before it stops its election timer and sends anything. -/
theorem becomeLeader_steps (hrole : s.core.election.role = .candidate)
    (hquorum : s.core.membership.hasQuorum s.core.election.grantedVoters.card = true) :
    Steps e s s.becomeLeader := by
  simp only [becomeLeader]
  split
  · exact .refl
  next hr =>
  split
  · exact .refl
  next hv =>
  have hready := RaftCore.ready_of_passed hr
  have hvoter : s.core.membership.isVoter s.core.selfId = true := by simpa using hv
  have hlead := Micro.lead (e := e) s hready hvoter hrole hquorum
  have hchain := (Relation.ReflTransGen.single hlead).tail (.timers _ s.core.electionTickTrigger.stop
    s.core.heartbeatTickTrigger.reset false fun _ => Or.inl rfl)
  obtain ⟨hb, hl⟩ := broadcastAppendEntries_steps (e := e) (s := CoreState.appendNewEntry
    { s with core := { s.core with
      election := s.core.election.becomeLeader
      replication := RaftReplication.resetForLeader s.core.selfId s.core.membership s.core.raftLog
      electionTickTrigger := s.core.electionTickTrigger.stop
      heartbeatTickTrigger := s.core.heartbeatTickTrigger.reset
      recentLeaderActive := false } } .noop) ⟨hready, rfl⟩
  split
  · exact (hchain.trans hb).trans (tryUpdateCommitIndex_steps hl).1
  · exact hchain.trans hb

/-- A candidate asks the other voters, or is elected by its own vote. -/
theorem becomeCandidate_steps (hrole : s.core.election.role = .preCandidate) :
    Steps e s s.becomeCandidate := by
  simp only [becomeCandidate]
  split
  · exact .refl
  next hr =>
  split
  · exact .refl
  next hv =>
  have hready := RaftCore.ready_of_passed hr
  have hvoter : s.core.membership.isVoter s.core.selfId = true := by simpa using hv
  have hstand := Micro.candidate (e := e) s hready hvoter hrole
  have htimers := Micro.timers (e := e) (recordHardState { s with core := { s.core with
    election := s.core.election.becomeCandidate } })
    s.core.electionTickTrigger.reset s.core.heartbeatTickTrigger.stop false (by simp)
  have hchain := (Relation.ReflTransGen.single hstand).tail htimers
  split
  · next hq => exact hchain.trans (becomeLeader_steps rfl hq)
  · -- asking changes no role, so every request of the loop is built by a candidate
    have hask : ∀ (s : CoreState) (target : PeerMember), s.core.election.role = .candidate →
        Steps e s (s.sendRequestVoteTo target) ∧
          (s.sendRequestVoteTo target).core.election.role = .candidate := fun s target hs =>
      ⟨.single (.send s (.requestVote target _) ⟨hs, rfl⟩ rfl), hs⟩
    exact hchain.trans (foldl_steps hask _ _ rfl).1

/-- A pre-candidate asks first whether it would be voted for. -/
theorem becomePreCandidate_steps : Steps e s s.becomePreCandidate := by
  simp only [becomePreCandidate]
  split
  · exact .refl
  next hr =>
  split
  · exact .refl
  next hv =>
  split
  · exact .refl
  next hl =>
  have hready := RaftCore.ready_of_passed hr
  have hvoter : s.core.membership.isVoter s.core.selfId = true := by simpa using hv
  have hrole : s.core.election.role ≠ .leader := by simpa [RaftElection.isLeader] using hl
  have hstand := Micro.preCandidate (e := e) s hready hvoter hrole
  have htimers := Micro.timers (e := e) { s with core := { s.core with
    election := s.core.election.becomePreCandidate } }
    s.core.electionTickTrigger.reset s.core.heartbeatTickTrigger.stop false (by simp)
  have hchain := (Relation.ReflTransGen.single hstand).tail htimers
  split
  · exact hchain.trans (becomeCandidate_steps rfl)
  · have hask : ∀ (s : CoreState) (target : PeerMember), s.core.election.role = .preCandidate →
        Steps e s (s.sendPreVoteTo target) ∧
          (s.sendPreVoteTo target).core.election.role = .preCandidate := fun s target hs =>
      ⟨.single (.send s (.preVote target _) ⟨hs, rfl⟩ rfl), hs⟩
    exact hchain.trans (foldl_steps hask _ _ rfl).1

/-- A tick reaches the heartbeat timer of a leader and the election timer of everyone else. -/
theorem tick_steps : Steps e s s.tick := by
  simp only [tick]
  split
  · exact .refl
  next hr =>
  have hready := RaftCore.ready_of_passed hr
  split
  · next hl =>
    have hrole : s.core.election.role = .leader := by simpa [RaftElection.isLeader] using hl
    have htimers := Micro.timers (e := e) s s.core.electionTickTrigger
      s.core.heartbeatTickTrigger.tick.2 s.core.recentLeaderActive Or.inr
    split
    · refine .head htimers ((broadcastAppendEntries_steps ?_).1.trans maybePromoteReadyLearner_steps)
      exact ⟨hready, hrole⟩
    · exact .head htimers maybePromoteReadyLearner_steps
  · have htimers := Micro.timers (e := e) s s.core.electionTickTrigger.tick.2
      s.core.heartbeatTickTrigger s.core.recentLeaderActive
      fun h => Or.inr ((TickTrigger.tick_stopFlag _).symm.trans h)
    split
    · exact .head htimers becomePreCandidate_steps
    · exact .single htimers

/-- Only a quorum of pre-votes starts an election. -/
theorem handlePreVoteResponse_steps (sender : ReplicaID) (result : PreVoteResult) :
    Steps e s (s.handlePreVoteResponse sender result) := by
  simp only [handlePreVoteResponse]
  split
  · exact .refl
  split
  · exact .refl
  next hp =>
  have hrole : s.core.election.role = .preCandidate := by
    simpa [RaftElection.isPreCandidate] using hp
  split
  · next ht => exact .single (.follow s _ ht.le)
  split
  · exact .refl
  split
  · exact .refl
  split
  · exact .refl
  split
  · exact .refl
  -- past the checks the answer counts
  have hcount := Micro.preVoteCounted (e := e) s sender hrole
  split
  · exact .head hcount (becomeCandidate_steps hrole)
  · exact .single hcount

/-- Who takes part in a vote. -/
theorem ensureVotePreconditions_fail_eq_false {c : RaftCore} {param : RequestVoteParam} :
    (ensureVotePreconditions c param).fail = false ↔
      c.membership.isVoter c.selfId = true ∧ c.membership.isVoter param.fromReplicaId = true ∧
        c.recovering = false := by
  unfold ensureVotePreconditions
  by_cases hs : c.membership.isVoter c.selfId = true
  · by_cases hf : c.membership.isVoter param.fromReplicaId = true
    · simp [hs, hf, RaftCore.ensureReady_fail_eq_false]
    · simp [hs, hf, Status.fail]
  · simp [hs, Status.fail]

/-- A vote, behind the term of the request where that is later. -/
theorem handleRequestVote_steps (param : RequestVoteParam) :
    Steps (.requestVote param) s (s.handleRequestVote param).2 := by
  simp only [handleRequestVote]
  split
  · exact .refl
  next hpre =>
  split
  · exact .refl
  next hterm =>
  obtain ⟨hvoter, hcand, hready⟩ :=
    ensureVotePreconditions_fail_eq_false.mp (by simpa using hpre)
  -- a later term is adopted first
  obtain ⟨s₁, hs₁, hsteps, hterm₁, hframe⟩ : ∃ s₁ : CoreState,
      s₁ = (if s.core.election.currentTerm < param.term then s.becomeFollower param.term else s) ∧
      Steps (.requestVote param) s s₁ ∧ s₁.core.election.currentTerm = param.term ∧
      s₁.core.recovering = s.core.recovering ∧ s₁.core.membership = s.core.membership ∧
      s₁.core.selfId = s.core.selfId := by
    refine ⟨_, rfl, ?_⟩
    split
    · next hlt =>
      exact ⟨.single (.follow s _ hlt.le), by simp [becomeFollower_core],
        by simp [becomeFollower_core]⟩
    · exact ⟨.refl, by omega, rfl, rfl, rfl⟩
  rw [← hs₁]
  split
  · exact hsteps
  next hlog =>
  split
  · next hfree =>
    have hgrant := Micro.grantVote (e := .requestVote param) s₁ param rfl
      (hframe.1.trans hready) (by rw [hframe.2.1, hframe.2.2]; exact hvoter)
      (by rw [hframe.2.1]; exact hcand) hterm₁ (by simpa using hlog) hfree
    exact (hsteps.tail hgrant).tail (.timers _ s₁.core.electionTickTrigger.clear
      s₁.core.heartbeatTickTrigger s₁.core.recentLeaderActive
      fun h => Or.inr ((TickTrigger.clear_stopFlag _).symm.trans h))
  · exact hsteps

/-- A vote counts if it is granted, of this term and from a voter. -/
theorem handleVoteResponse_steps (sender : ReplicaID) (result : RequestVoteResult) :
    Steps (.voteResponse sender result) s (s.handleVoteResponse sender result) := by
  simp only [handleVoteResponse]
  split
  · exact .refl
  split
  · exact .refl
  next hc =>
  have hrole : s.core.election.role = .candidate := by simpa [RaftElection.isCandidate] using hc
  split
  · next ht => exact .single (.follow s _ ht.le)
  next ht =>
  split
  · exact .refl
  next ht' =>
  split
  · exact .refl
  next hgranted =>
  split
  · exact .refl
  next hvoter =>
  split
  · exact .refl
  have hcount := Micro.voteCounted s sender result rfl hrole (by omega) (by simpa using hgranted)
    (by simpa using hvoter)
  split
  · next hq => exact .head hcount (becomeLeader_steps hrole hq)
  · exact .single hcount

/-! ## Messages of a leader -/

/-- A message of the leader of this term or a later one: its sender is followed and the timer cleared. -/
theorem followLeader_steps {term : Nat} (h : s.core.election.currentTerm ≤ term) :
    Steps e s (s.followLeader term) := by
  have hclear : ∀ s : CoreState, s.core.electionTickTrigger.clear.stopFlag = true →
      s.core.election.role = .leader ∨ s.core.electionTickTrigger.stopFlag = true := fun s hstop =>
    Or.inr ((TickTrigger.clear_stopFlag _).symm.trans hstop)
  simp only [followLeader]
  split
  · exact .head (.follow s term h) (.single (.timers _ _ _ _ (hclear _)))
  · exact .single (.timers s _ _ _ (hclear s))

/-- An AppendEntries that is accepted is one move, whatever it carries. -/
theorem handleAppendEntries_steps (param : AppendEntriesParam)
    (happ : s.effects.entriesToAppend = []) (hrew : s.effects.entriesToRewrite = none) :
    Steps (.appendEntries param) s (s.handleAppendEntries param).2 := by
  simp only [handleAppendEntries]
  split
  · exact .refl
  next hmember =>
  split
  · exact .refl
  next hterm =>
  have hle : s.core.election.currentTerm ≤ param.term := by omega
  have hfollow := followLeader_steps (e := .appendEntries param) hle
  obtain ⟨hterm₁, hrole₁⟩ := followLeader_election hle
  obtain ⟨happ₁, hrew₁⟩ := followLeader_effects s param.term
  split
  · exact hfollow
  next hprev =>
  have haccept : ∀ log r, (s.followLeader param.term).core.raftLog.appendEntriesFromLeader
      param.entries = .ok (log, r) →
      Steps (.appendEntries param) s
        (((s.followLeader param.term).storeMerge log r).acceptAppend param.leaderCommit) :=
    fun log r hmerge => hfollow.tail (.accept _ param log r rfl hrole₁ hterm₁
      (by simpa using hmember) (by simpa using hprev) hmerge (happ₁.trans happ) (hrew₁.trans hrew))
  split
  · next hnil =>
    -- an empty message is an accept whose merge changes nothing
    have hstore : (s.followLeader param.term).storeMerge (s.followLeader param.term).core.raftLog {} =
        s.followLeader param.term := by
      have heff : (s.followLeader param.term).effects.entriesToAppend = [] := happ₁.trans happ
      unfold storeMerge
      simp only [← heff]
    have := haccept (s.followLeader param.term).core.raftLog {}
      (by simp [RaftLog.appendEntriesFromLeader, hnil])
    rwa [hstore] at this
  · split
    · exact hfollow
    · next log r hmerge => exact haccept log r hmerge

/-- An answer counts in the term it was asked in, from a leader, for the probe it was sent for. -/
theorem handleAppendResponse_steps (sender : ReplicaID) (sent : AppendEntriesParam)
    (result : AppendEntriesResult) :
    Steps (.appendResponse sender sent result) s (s.handleAppendResponse sender sent result).2 := by
  simp only [handleAppendResponse]
  split
  · exact .refl
  next hr =>
  have hready := RaftCore.ready_of_passed hr
  split
  · next ht => exact .single (.follow s _ ht.le)
  next hlater =>
  split
  · exact .refl
  next hterm =>
  split
  · exact .refl
  next hl =>
  have hrole : s.core.election.role = .leader := by simpa [RaftElection.isLeader] using hl
  split
  · exact .refl
  next hstale =>
  -- an answer to anything but the last probe is dropped
  have hfresh : sent.prevLogIndex + 1 = s.core.replication.nextIndex sender := by
    simpa [RaftReplication.isStaleAppendResponse] using hstale
  split
  · next hok =>
    have hack := Micro.ackOk s sender sent result rfl hready hrole (not_not.mp hterm)
      (by omega) hfresh hok
    refine .head hack ((tryUpdateCommitIndex_steps ?_).1.trans maybePromoteReadyLearner_steps)
    exact ⟨hready, hrole⟩
  · next hfailed =>
    exact .single (.ackFailed s sender sent result rfl hrole (not_not.mp hterm) (by omega) hfresh
      (by simpa using hfailed))

/-- A read sends one probe to each of the other members. -/
theorem buildReadQuorumCheck_steps (seq : Nat) :
    Steps (.readQuorumCheck seq) s (s.buildReadQuorumCheck seq).2 := by
  simp only [buildReadQuorumCheck]
  split
  · exact .refl
  next hl =>
  obtain ⟨hready, hrole, hcommitted⟩ :=
    RaftCore.ensureReadableLeader_fail_eq_false.mp (by simpa using hl)
  -- sending changes only the effects, so every message is built from the same core
  refine (foldl_steps (P := fun s' => s'.core = s.core) (fun s' target hs' => ?_) _ s rfl).1
  refine ⟨.single (.send s' _ ?_ rfl), hs'⟩
  rw [hs']
  exact ⟨hrole, hready, Or.inr ⟨seq, rfl, hcommitted, rfl⟩⟩

/-- The receiver of a chunk follows its leader, whatever becomes of the chunk. -/
theorem prepareInstallSnapshot_steps (param : InstallSnapshotParam) :
    Steps e s (s.prepareInstallSnapshot param).2.2 := by
  simp only [prepareInstallSnapshot]
  split
  · exact .refl
  split
  · exact .refl
  next hterm =>
  have hfollow : Steps e s (s.followLeader param.term) := followLeader_steps (by omega)
  split
  · exact hfollow
  · split <;> exact hfollow

/-- An answer to a transfer clears its mark; a success also moves the progress. -/
theorem handleInstallSnapshotResponse_steps (sender : ReplicaID) (sent : InstallSnapshotParam)
    (result : InstallSnapshotResult) :
    Steps (.snapshotResponse sender sent result) s
      (s.handleInstallSnapshotResponse sender sent result) := by
  simp only [handleInstallSnapshotResponse]
  split
  · exact .refl
  next hr =>
  have hready := RaftCore.ready_of_passed hr
  split
  · next ht => exact .single (.follow s _ ht.le)
  next hlater =>
  split
  · exact .refl
  next hl =>
  have hrole : s.core.election.role = .leader := by simpa [RaftElection.isLeader] using hl
  split
  · exact .refl
  next hterm =>
  have hclear := Micro.settle s sender sent (Or.inl ⟨result, rfl⟩) hrole (not_not.mp hterm)
  split
  · next hok =>
    exact .head hclear (.single (.watermark _ sender sent result rfl hready hrole (not_not.mp hterm)
      (Nat.not_lt.mp hlater) hok))
  · exact .single hclear

/-- A failed send clears the mark, so that the snapshot can go out again. -/
theorem handleInstallSnapshotSendFailed_steps (sender : ReplicaID) (sent : InstallSnapshotParam) :
    Steps (.snapshotSendFailed sender sent) s
      { s with core := handleInstallSnapshotSendFailed s.core sender sent } := by
  unfold handleInstallSnapshotSendFailed
  split
  · exact .refl
  split
  · exact .refl
  next hl =>
  split
  · exact .refl
  next hterm =>
  have hrole : s.core.election.role = .leader := by simpa [RaftElection.isLeader] using hl
  exact .single (.settle s sender sent (Or.inr rfl) hrole (not_not.mp hterm))

end CoreState

/-- **Handlers are chains of moves.** A step of the core starts with no effects recorded. -/
theorem CoreEvent.step_steps (e : CoreEvent) (c : RaftCore) :
    Steps e { core := c } (e.step { core := c }) := by
  cases e with
  | tick => exact CoreState.tick_steps
  | proposeBatch params => exact CoreState.proposeBatch_steps params
  | addLearner member => exact CoreState.ensureAddLearner_steps member
  | removeMember id => exact CoreState.ensureRemoveMember_steps id
  | preVoteResponse sender result => exact CoreState.handlePreVoteResponse_steps sender result
  | requestVote param => exact CoreState.handleRequestVote_steps param
  | voteResponse sender result => exact CoreState.handleVoteResponse_steps sender result
  | appendEntries param => exact CoreState.handleAppendEntries_steps param rfl rfl
  | appendResponse sender sent result =>
    exact CoreState.handleAppendResponse_steps sender sent result
  | readQuorumCheck seq => exact CoreState.buildReadQuorumCheck_steps seq
  | prepareInstallSnapshot param => exact CoreState.prepareInstallSnapshot_steps param
  | installSnapshot header => exact .single (.install _ header rfl rfl rfl)
  | snapshotResponse sender sent result =>
    exact CoreState.handleInstallSnapshotResponse_steps sender sent result
  | snapshotSendFailed sender sent =>
    exact CoreState.handleInstallSnapshotSendFailed_steps sender sent

/-- An invariant of the moves for `e` survives the handler of `e`. -/
theorem CoreEvent.step_induction {e : CoreEvent} {P : CoreState → Prop}
    (hmove : ∀ s s', Micro e s s' → P s → P s') (h : P { core := c }) :
    P (e.step { core := c }) :=
  Relation.ReflTransGen.head_induction_on (motive := fun s _ => P s → P (e.step { core := c }))
    (e.step_steps c) (fun h => h) (fun hs _ ih hP => ih (hmove _ _ hs hP)) h

end AdvisKV
